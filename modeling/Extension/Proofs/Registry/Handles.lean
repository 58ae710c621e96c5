import Extension.Proofs.Registry.ContextKeys

namespace Extension.Registry

open Decision Host

/-! Several handles of one context key.

Each handle remembers what was last given to it, and nothing of what the others gave.  For values without parts
that are no doubles, a value counts as another one only if it is that one.
-/

variable {η σ : Type} {registry : Watched η σ} {given : Nat → Value} {index : Nat} {key : ContextKey} {value : Value}

/-- The value that was given, without a fault, to the handle at the given place. -/
def Event.gives? (event : Event η σ) (index : Nat) : Option Value :=
  match event.operation, event.outcome with
  | .assign (.contextKey place) value, .ok () => if place = index then some value else none
  | _, _ => none

/-- The value that was last given to a handle, or null if there was none. -/
def lastGiven (events : List (Event η σ)) (index : Nat) : Value :=
  (events.filterMap (·.gives? index)).getLast?.getD .null

/-- The handles remember the values given, and no value is given to what is not declared. -/
structure Remembers (registry : Watched η σ) (given : Nat → Value) : Prop where
  values : ∀ index key, registry.contextKeys[index]? = some key → key.value = given index
  beyond : ∀ index, registry.contextKeys.length ≤ index → given index = .null

theorem Remembers.of_keys {other : Watched η σ} (remembers : Remembers registry given)
    (same : other.contextKeys = registry.contextKeys) : Remembers other given := by
  refine ⟨?_, ?_⟩
  · rw [same]
    exact remembers.values
  · rw [same]
    exact remembers.beyond

theorem Remembers.declare (remembers : Remembers registry given) (name : String) :
    Remembers { registry with contextKeys := registry.contextKeys ++ [{ name }] } given := by
  constructor
  · intro index key found
    change (registry.contextKeys ++ [({ name } : ContextKey)])[index]? = some key at found
    rcases Nat.lt_or_ge index registry.contextKeys.length with earlier | later
    · rw [List.getElem?_append_left earlier] at found
      exact remembers.values index key found
    · rw [List.getElem?_append_right later, List.getElem?_singleton] at found
      split at found
      · rw [← Option.some.inj found, remembers.beyond index later]
      · cases found
  · intro index beyond
    change (registry.contextKeys ++ [({ name } : ContextKey)]).length ≤ index at beyond
    rw [List.length_append] at beyond
    exact remembers.beyond index (Nat.le_of_add_right_le beyond)

theorem Event.gives?_of_ne_assign (event : Event η σ)
    (other : ∀ reference value, event.operation ≠ .assign reference value) (index : Nat) :
    event.gives? index = none := by
  rw [Event.gives?]
  split
  · next place value is _ => exact absurd is (other _ _)
  · rfl

/-- Giving a value to one handle is what the others do not see. -/
theorem Remembers.assign (remembers : Remembers registry given) (reference : Reference)
    (atom : ∀ place, reference = .contextKey place → value.IsAtom) :
    Remembers (registry.assign reference value).2 fun index =>
      (Event.gives? ⟨registry, .assign reference value, (registry.assign reference value).1⟩ index).getD
        (given index) := by
  by_cases known : ∃ (place : Nat) (key : ContextKey), reference = .contextKey place ∧
    registry.contextKeys[place]? = some key
  · obtain ⟨place, key, rfl, found⟩ := known
    have bound := (List.getElem?_eq_some_iff.mp found).1
    have assigned := assign_assigned found value
    generalize registry.assign (.contextKey place) value = attempt at assigned ⊢
    cases assigned with
    | unattached changes detached => exact remembers
    | refused changes attached refuses => exact remembers.of_keys rfl
    | unchanged current =>
        have same : given place = value := by
          rw [← remembers.values place key found]
          exact eq_of_isCurrent (atom place rfl) current
        refine ⟨fun index other there => ?_, fun index beyond => ?_⟩
        · simp only [Event.gives?]
          split
          · next here =>
              subst here
              rw [remembers.values place other there, same, Option.getD_some]
          · exact remembers.values index other there
        · have differ : place ≠ index := Nat.ne_of_lt (Nat.lt_of_lt_of_le bound beyond)
          simp only [Event.gives?, if_neg differ, Option.getD_none]
          exact remembers.beyond index beyond
    | delivered changes attached accepts =>
        refine ⟨fun index other there => ?_, fun index beyond => ?_⟩
        · simp only [List.getElem?_set] at there
          simp only [Event.gives?]
          split
          · next here =>
              subst here
              simp only [bound, if_true, Option.some.injEq] at there
              rw [← there, Option.getD_some]
          · next differ =>
              rw [if_neg differ] at there
              exact remembers.values index other there
        · rw [List.length_set] at beyond
          have differ : place ≠ index := Nat.ne_of_lt (Nat.lt_of_lt_of_le bound beyond)
          simp only [Event.gives?, if_neg differ, Option.getD_none]
          exact remembers.beyond index beyond
  · obtain ⟨failure, same⟩ := registry.assign_undeclared
      (fun place key is found => known ⟨place, key, is, found⟩) value
    rw [same]
    have none (index : Nat) : Event.gives? ⟨registry, .assign reference value, .error failure⟩ index = .none := by
      rw [Event.gives?]
      split
      · contradiction
      · rfl
    simpa only [none, Option.getD_none] using remembers

theorem Remembers.perform (remembers : Remembers registry given) (operation : Operation η σ)
    (atom : ∀ place value, operation = .assign (.contextKey place) value → value.IsAtom) :
    Remembers (registry.perform operation).2 fun index =>
      (Event.gives? ⟨registry, operation, (registry.perform operation).1⟩ index).getD (given index) := by
  have quietly (assigns : ∀ reference value, operation ≠ .assign reference value)
      (kept : Remembers (registry.perform operation).2 given) :
      Remembers (registry.perform operation).2 fun index =>
        (Event.gives? ⟨registry, operation, (registry.perform operation).1⟩ index).getD (given index) := by
    have none (index : Nat) :=
      Event.gives?_of_ne_assign ⟨registry, operation, (registry.perform operation).1⟩ assigns index
    simpa only [none, Option.getD_none] using kept
  have others (declares : ∀ name, operation ≠ .contextKey name)
      (assigns : ∀ reference value, operation ≠ .assign reference value) :
      Remembers (registry.perform operation).2 fun index =>
        (Event.gives? ⟨registry, operation, (registry.perform operation).1⟩ index).getD (given index) :=
    quietly assigns (remembers.of_keys ((registry.perform_keeps operation).2 declares assigns))
  cases operation with
  | contextKey name =>
      refine quietly (by simp) ?_
      simp only [Registry.perform, ended, addContextKey]
      split
      · exact remembers.declare _
      · exact remembers
      · exact remembers
  | assign reference value =>
      exact remembers.assign reference fun place is => atom place value (by rw [is])
  | command descriptor activates => exact others (by simp) (by simp)
  | menu id => exact others (by simp) (by simp)
  | attach host => exact others (by simp) (by simp)
  | detach => exact others (by simp) (by simp)
  | register reference handler => exact others (by simp) (by simp)
  | call reference arguments => exact others (by simp) (by simp)
  | assertRegistered => exact others (by simp) (by simp)

theorem Remembers.after (remembers : Remembers registry given) (operations : List (Operation η σ))
    (atoms : ∀ place value, .assign (.contextKey place) value ∈ operations → value.IsAtom) :
    Remembers (registry.after operations) fun index =>
      ((registry.history operations).filterMap (·.gives? index)).getLast?.getD (given index) := by
  induction operations generalizing registry given with
  | nil => simpa only [after_nil, history, List.filterMap_nil, List.getLast?_nil, Option.getD_none] using remembers
  | cons operation operations ih =>
      have step := remembers.perform operation fun place value is => atoms place value (is ▸ List.mem_cons_self)
      have rest := ih step fun place value member => atoms place value (List.mem_cons_of_mem _ member)
      have joined (index : Nat) :
          ((registry.history (operation :: operations)).filterMap (·.gives? index)).getLast?.getD (given index) =
            (((registry.perform operation).2.history operations).filterMap (·.gives? index)).getLast?.getD
              ((Event.gives? ⟨registry, operation, (registry.perform operation).1⟩ index).getD (given index)) := by
        rw [history, List.filterMap_cons]
        cases gives : Event.gives? ⟨registry, operation, (registry.perform operation).1⟩ index with
        | none => rfl
        | some value => rw [List.getLast?_cons, Option.getD_some, Option.getD_some]
      simpa only [after_cons, joined] using rest

theorem remembers_fresh (state : σ) (operations : List (Operation η σ))
    (atoms : ∀ place value, .assign (.contextKey place) value ∈ operations → value.IsAtom) :
    Remembers ((fresh state).after operations) (lastGiven ((fresh state).history operations)) := by
  have nothing : Remembers (fresh state : Watched η σ) fun _ => .null :=
    ⟨fun _ _ found => by simp [fresh] at found, fun _ _ => rfl⟩
  exact nothing.after operations atoms

/-- What giving a value to one of several handles of a name comes to. -/
structure Shows (registry : Watched η σ) (events : List (Event η σ)) (index : Nat) (key : ContextKey) (value : Value) :
    Prop where
  remembered : key.value = lastGiven events index
  /-- The host holds what one of the handles of the name was last given. -/
  owned : registry.held key.name = .null ∨ ∃ (other : Nat) (found : ContextKey),
    registry.contextKeys[other]? = some found ∧ found.name = key.name ∧
      lastGiven events other = registry.held key.name
  accepted : ∀ (host : Host η (σ × List Request)) (answer : Value), registry.host = some host →
    (host.execute "setContext" [.text key.name, value] registry.hostState).1 = .ok answer →
      (registry.assign (.contextKey index) value).1 = .ok ()
  /-- The host holds the value afterwards, unless this is what the handle was last given and another handle of the
  name has changed it since. -/
  reaches_iff : (registry.assign (.contextKey index) value).1 = .ok () →
    ((registry.assign (.contextKey index) value).2.held key.name = value ↔
      ¬ (lastGiven events index = value ∧ registry.held key.name ≠ value))
  alone : Alone registry index key → (registry.assign (.contextKey index) value).1 = .ok () →
    (registry.assign (.contextKey index) value).2.held key.name = value

/-- A value that is given to one of several handles reaches the host, unless it is what this handle was last
given. -/
theorem handles_show (state : σ) (operations : List (Operation η σ))
    (uncalled : ∀ reference arguments, .call reference arguments ∉ operations)
    (atoms : ∀ place value, .assign (.contextKey place) value ∈ operations → value.IsAtom)
    (found : ((fresh state).after operations).contextKeys[index]? = some key) (value : Value) (atom : value.IsAtom) :
    Shows ((fresh state).after operations) ((fresh state).history operations) index key value := by
  have follows := (follows_fresh state).after operations uncalled
  have remembers := remembers_fresh state operations atoms
  generalize (fresh state).after operations = registry at follows remembers found ⊢
  generalize (fresh state).history operations = events at remembers ⊢
  have remembered := remembers.values index key found
  have gives := follows.gives found value
  have reaches (ok : (registry.assign (.contextKey index) value).1 = .ok ()) :
      (registry.assign (.contextKey index) value).2.held key.name = value ↔
        ¬ (lastGiven events index = value ∧ registry.held key.name ≠ value) := by
    rw [(gives.given ok).2, if_pos rfl, heldAfter, ← remembered]
    by_cases same : key.value = value
    · rw [if_pos ((isCurrent_iff atom).mpr same)]
      simp [same]
    · rw [if_neg fun current => same ((isCurrent_iff atom).mp current)]
      simp [same]
  refine {
    remembered
    owned := ?_
    accepted := fun host answer attached accepts => ?_
    reaches_iff := reaches
    alone := fun alone ok => ?_ }
  · refine (follows.owned key.name).imp id ?_
    rintro ⟨other, old, there, named, holds⟩
    exact ⟨other, old, there, named, (remembers.values other old there).symm.trans holds⟩
  · have assigned := assign_assigned found value
    generalize registry.assign (.contextKey index) value = attempt at assigned ⊢
    cases assigned with
    | unchanged => rfl
    | delivered => rfl
    | unattached changes detached => exact absurd (attached.symm.trans detached) (by simp)
    | refused changes attached' refuses =>
        obtain rfl := Option.some.inj (attached.symm.trans attached')
        rw [refuses] at accepts
        cases accepts
  · refine (reaches ok).mpr ?_
    rintro ⟨given, lost⟩
    refine lost ?_
    rw [follows.alone index key found alone, remembered, given]

/-- Two handles of one name, each given a value of its own. -/
def takingTurns : List (Operation Handler Recording) :=
  [.attach recording, .contextKey (.text "mode"), .contextKey (.text "mode"),
    .assign (.contextKey 0) (.text "x"), .assign (.contextKey 1) (.text "y")]

/-- The value of the first handle, given to it again, does not replace that of the second. -/
theorem repeated_value_lost :
    (((fresh {}).after takingTurns).assign (.contextKey 0) (.text "x")).1 = .ok () ∧
    (((fresh {}).after takingTurns).assign (.contextKey 0) (.text "x")).2.held "mode" ≠ .text "x" := by
  have found : ((fresh ({} : Recording)).after takingTurns).contextKeys[0]? = some ⟨"mode", .text "x"⟩ := rfl
  have between : ((fresh ({} : Recording)).after takingTurns).held "mode" = .text "y" := rfl
  have uncalled (reference : Reference) (arguments : List Value) : .call reference arguments ∉ takingTurns := by
    simp [takingTurns]
  have atoms (place : Nat) (value : Value) (given : .assign (.contextKey place) value ∈ takingTurns) :
      value.IsAtom := by
    rcases (by simpa [takingTurns] using given : place = 0 ∧ value = .text "x" ∨ place = 1 ∧ value = .text "y") with
      ⟨_, rfl⟩ | ⟨_, rfl⟩ <;> exact trivial
  have current : isCurrent (.text "x") (.text "x") = true := by decide
  have ok : (((fresh {}).after takingTurns).assign (.contextKey 0) (.text "x")).1 = .ok () := by
    simp only [assign, contextKey?, found, current, if_true]
  have shows := handles_show ({} : Recording) takingTurns uncalled atoms found (.text "x") trivial
  refine ⟨ok, fun held => (shows.reaches_iff ok).mp held ⟨?_, ?_⟩⟩
  · exact shows.remembered.symm
  · rw [between]
    simp

end Extension.Registry
