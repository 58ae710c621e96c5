import Extension.Proofs.Registry.Operation

namespace Extension.Registry

open Decision Host

/-! Which commands count as registered.

A command is marked before the host is asked to register it, so the mark says that somebody tried.
-/

variable {η σ : Type}

namespace Event

/-- Is this an attempt to register the command that was declared at the given place? -/
def asksFor (event : Event η σ) (index : Nat) : Bool :=
  match event.operation with
  | .register (.command asked) _ => asked == index && index < event.before.commands.length
  | _ => false

/-- The host was attached, and its own registration of the command at the given place came back without a
fault. -/
def Accepted (event : Event η σ) (index : Nat) : Prop :=
  ∃ handler command host answer, event.operation = .register (.command index) handler ∧
    event.before.commands[index]? = some command ∧ event.before.host = some host ∧
    (host.register command.descriptor.id handler event.before.hostState).1 = .ok answer

theorem Accepted.asksFor {event : Event η σ} {index : Nat} (accepted : event.Accepted index) :
    event.asksFor index = true := by
  obtain ⟨handler, command, host, answer, asks, found, _, _⟩ := accepted
  have bound := (List.getElem?_eq_some_iff.mp found).1
  simp [Event.asksFor, asks, bound]

theorem asksFor_of_ne_register {event : Event η σ}
    (other : ∀ reference handler, event.operation ≠ .register reference handler) (index : Nat) :
    event.asksFor index = false := by
  rw [Event.asksFor]
  split
  · next asked handler is => exact absurd is (other _ _)
  · rfl

end Event

def askedFor (events : List (Event η σ)) (index : Nat) : Bool :=
  events.any (·.asksFor index)

/-- The commands that nobody has tried to register, in the order of their declaration. -/
def neverAsked (events : List (Event η σ)) (commands : List DeclaredCommand) : List DeclaredCommand :=
  (commands.zipIdx.filter fun found => !askedFor events found.2).map Prod.fst

/-- The marks of the commands are those given, and no mark is given for what is not declared. -/
structure Marked (registry : Watched η σ) (asked : Nat → Bool) : Prop where
  marks : ∀ index command, registry.commands[index]? = some command → command.isRegistered = asked index
  beyond : ∀ index, registry.commands.length ≤ index → asked index = false

variable {registry : Watched η σ} {asked : Nat → Bool}

theorem Marked.of_commands {other : Watched η σ} (marked : Marked registry asked)
    (same : other.commands = registry.commands) : Marked other asked := by
  refine ⟨?_, ?_⟩
  · rw [same]
    exact marked.marks
  · rw [same]
    exact marked.beyond

theorem Marked.declare (marked : Marked registry asked) (descriptor : Manifest.Command String) (activates : Bool) :
    Marked (registry.addCommand descriptor activates).2 asked := by
  have commands : (registry.addCommand descriptor activates).2.commands =
      registry.commands ++ [({ descriptor, activates } : DeclaredCommand)] := rfl
  constructor
  · intro index command found
    rw [commands] at found
    rcases Nat.lt_trichotomy index registry.commands.length with earlier | rfl | later
    · rw [List.getElem?_append_left earlier] at found
      exact marked.marks index command found
    · rw [List.getElem?_concat_length] at found
      cases found
      exact (marked.beyond _ (Nat.le_refl _)).symm
    · have absent : (registry.commands ++ [({ descriptor, activates } : DeclaredCommand)])[index]? = none := by
        rw [List.getElem?_eq_none_iff, List.length_append, List.length_singleton]
        exact later
      rw [absent] at found
      cases found
  · intro index beyond
    rw [commands, List.length_append] at beyond
    exact marked.beyond index (Nat.le_of_succ_le beyond)

theorem register_commands {index : Nat} {command : DeclaredCommand} (found : registry.commands[index]? = some command)
    (handler : η) :
    (registry.register (.command index) handler).2.commands =
      registry.commands.set index { command with isRegistered := true } := by
  simp only [register, command?, found, ask_commands]

theorem register_undeclared {reference : Reference} (undeclared : ∀ index command,
      reference = .command index → registry.commands[index]? ≠ some command) (handler : η) :
    (registry.register reference handler).2 = registry := by
  cases reference with
  | command index =>
      have absent : registry.commands[index]? = none :=
        Option.eq_none_iff_forall_ne_some.mpr fun command => undeclared index command rfl
      simp only [register, command?, absent]
  | external id => rfl
  | contextKey index => rfl
  | menu index => rfl

theorem Marked.register (marked : Marked registry asked) {place : Nat} {command : DeclaredCommand}
    (found : registry.commands[place]? = some command) (handler : η) :
    Marked (registry.register (.command place) handler).2 fun index => asked index || place == index := by
  have bound := (List.getElem?_eq_some_iff.mp found).1
  have commands := register_commands found handler
  constructor
  · intro index other there
    rw [commands, List.getElem?_set] at there
    by_cases same : place = index
    · subst same
      simp only [bound, if_true, Option.some.injEq] at there
      simp [← there]
    · rw [if_neg same] at there
      simp [same, marked.marks index other there]
  · intro index beyond
    rw [commands, List.length_set] at beyond
    have other : (place == index) = false := by simpa using Nat.ne_of_lt (Nat.lt_of_lt_of_le bound beyond)
    simp only [marked.beyond index beyond, other, Bool.or_self]

/-- An operation marks just the command that it tries to register. -/
theorem Marked.perform (marked : Marked registry asked) (operation : Operation η σ) :
    Marked (registry.perform operation).2 fun index =>
      asked index || Event.asksFor ⟨registry, operation, (registry.perform operation).1⟩ index := by
  have quietly (quiet : ∀ index, Event.asksFor ⟨registry, operation, (registry.perform operation).1⟩ index = false)
      (kept : Marked (registry.perform operation).2 asked) :
      Marked (registry.perform operation).2 fun index =>
        asked index || Event.asksFor ⟨registry, operation, (registry.perform operation).1⟩ index := by
    simpa only [quiet, Bool.or_false] using kept
  have others (declares : ∀ descriptor activates, operation ≠ .command descriptor activates)
      (registers : ∀ reference handler, operation ≠ .register reference handler) :
      Marked (registry.perform operation).2 fun index =>
        asked index || Event.asksFor ⟨registry, operation, (registry.perform operation).1⟩ index :=
    quietly (Event.asksFor_of_ne_register registers)
      (marked.of_commands ((registry.perform_keeps operation).1 declares registers))
  cases operation with
  | command descriptor activates =>
      exact quietly (Event.asksFor_of_ne_register (by simp)) (marked.declare descriptor activates)
  | register reference handler =>
      by_cases known : ∃ place command, reference = .command place ∧ registry.commands[place]? = some command
      · obtain ⟨place, command, rfl, found⟩ := known
        have bound := (List.getElem?_eq_some_iff.mp found).1
        have asks (index : Nat) :
            Event.asksFor ⟨registry, .register (.command place) handler,
              (registry.perform (.register (.command place) handler)).1⟩ index = (place == index) := by
          by_cases same : place = index
          · simp [Event.asksFor, ← same, bound]
          · simp [Event.asksFor, same]
        simp only [asks]
        exact marked.register found handler
      · have undeclared (place : Nat) (command : DeclaredCommand) (is : reference = .command place) :
            registry.commands[place]? ≠ some command := fun found => known ⟨place, command, is, found⟩
        refine quietly (fun index => ?_) (marked.of_commands ?_)
        · cases reference with
          | command place =>
              have absent : registry.commands[place]? = none :=
                Option.eq_none_iff_forall_ne_some.mpr fun command => undeclared place command rfl
              have beyond : registry.commands.length ≤ place := List.getElem?_eq_none_iff.mp absent
              by_cases same : place = index
              · simp [Event.asksFor, ← same, beyond]
              · simp [Event.asksFor, same]
          | external id => rfl
          | contextKey place => rfl
          | menu place => rfl
        · simp only [Registry.perform, ended, register_undeclared undeclared]
  | menu id => exact others (by simp) (by simp)
  | contextKey name => exact others (by simp) (by simp)
  | attach host => exact others (by simp) (by simp)
  | detach => exact others (by simp) (by simp)
  | call reference arguments => exact others (by simp) (by simp)
  | assign reference value => exact others (by simp) (by simp)
  | assertRegistered => exact others (by simp) (by simp)

theorem Marked.after (marked : Marked registry asked) (operations : List (Operation η σ)) :
    Marked (registry.after operations) fun index => asked index || askedFor (registry.history operations) index := by
  induction operations generalizing registry asked with
  | nil => simpa only [after_nil, askedFor, history, List.any_nil, Bool.or_false] using marked
  | cons operation operations ih =>
      have rest := ih (marked.perform operation)
      simpa only [after_cons, askedFor, history, List.any_cons, Bool.or_assoc] using rest

theorem marked_fresh (state : σ) (operations : List (Operation η σ)) :
    Marked ((fresh state).after operations) (askedFor ((fresh state).history operations)) := by
  have nothing : Marked (fresh state : Watched η σ) fun _ => false :=
    ⟨fun _ _ found => by simp [fresh] at found, fun _ _ => rfl⟩
  simpa only [Bool.false_or] using nothing.after operations

theorem Marked.missing_eq {events : List (Event η σ)} (marked : Marked registry (askedFor events)) :
    registry.missing = neverAsked events registry.commands := by
  have same : registry.commands.zipIdx.filter (fun found => !askedFor events found.2) =
      registry.commands.zipIdx.filter (fun found => !found.1.isRegistered) := by
    refine List.filter_congr fun found member => ?_
    rw [marked.marks found.2 found.1 (List.mem_zipIdx_iff_getElem?.mp member)]
  calc
    registry.missing
    _ = (registry.commands.zipIdx.map Prod.fst).filter (fun command => !command.isRegistered) := by
      rw [List.zipIdx_map_fst, missing]
    _ = neverAsked events registry.commands := by
      rw [List.filter_map, neverAsked, same]
      rfl

theorem assertRegistered_silent {τ : Type} {registry : Registry η τ} (complete : registry.missing = []) :
    registry.assertRegistered = (.ok (), registry) := by
  simp only [assertRegistered, complete, List.map_nil]

theorem assertRegistered_missing {τ : Type} {registry : Registry η τ} (incomplete : registry.missing ≠ []) :
    registry.assertRegistered =
      if registry.host.isSome then
        (registry.note (.notRegistered (unregisteredMessage (registry.missing.map DeclaredCommand.display)))).ask
          fun host => host.showError (unregisteredMessage (registry.missing.map DeclaredCommand.display))
      else (.error (.unregistered (registry.missing.map DeclaredCommand.display)), registry) := by
  rw [assertRegistered]
  cases found : registry.missing with
  | nil => exact absurd found incomplete
  | cons command rest => rfl

/-- What the marks of the commands say about the operations before. -/
structure Reports (registry : Watched η σ) (events : List (Event η σ)) : Prop where
  asked : ∀ index command, registry.commands[index]? = some command →
    (command.isRegistered = true ↔ askedFor events index = true)
  accepted : ∀ event ∈ events, ∀ index, event.Accepted index → askedFor events index = true
  missing : registry.missing = neverAsked events registry.commands
  silent : neverAsked events registry.commands = [] → registry.assertRegistered = (.ok (), registry)
  raised : neverAsked events registry.commands ≠ [] → registry.host = none →
    registry.assertRegistered =
      (.error (.unregistered ((neverAsked events registry.commands).map DeclaredCommand.display)), registry)
  shown : neverAsked events registry.commands ≠ [] → ∀ host, registry.host = some host →
    registry.assertRegistered =
      let message := unregisteredMessage ((neverAsked events registry.commands).map DeclaredCommand.display)
      (registry.note (.notRegistered message)).ask fun host => host.showError message
  /-- The marks tell which commands the host has accepted just when it has accepted, at one time or another,
  every command that somebody tried to register. -/
  truthful_iff : (∀ index command, registry.commands[index]? = some command →
      (command.isRegistered = true ↔ ∃ event ∈ events, event.Accepted index)) ↔
    ∀ index, askedFor events index = true → ∃ event ∈ events, event.Accepted index

/-- A command counts as registered just when somebody has tried to register it, whatever came of it. -/
theorem operations_report (state : σ) (operations : List (Operation η σ)) :
    Reports ((fresh state).after operations) ((fresh state).history operations) := by
  have marked := marked_fresh state operations
  generalize (fresh state).after operations = registry at marked ⊢
  generalize (fresh state).history operations = events at marked ⊢
  have missing := marked.missing_eq
  have accepted (event : Event η σ) (member : event ∈ events) (index : Nat) (accepts : event.Accepted index) :
      askedFor events index = true := List.any_eq_true.mpr ⟨event, member, accepts.asksFor⟩
  exact {
    asked := fun index command found => by rw [marked.marks index command found]
    accepted
    missing
    silent := fun complete => assertRegistered_silent (missing.trans complete)
    raised := fun incomplete detached => by
      rw [assertRegistered_missing (missing ▸ incomplete), detached, missing]
      rfl
    shown := fun incomplete host attached => by
      rw [assertRegistered_missing (missing ▸ incomplete), attached, missing]
      rfl
    truthful_iff := by
      constructor
      · intro truthful index asked
        have bound : index < registry.commands.length := Nat.lt_of_not_le fun beyond => by
          rw [marked.beyond index beyond] at asked
          contradiction
        have found := List.getElem?_eq_getElem bound
        exact (truthful index _ found).mp ((marked.marks index _ found).trans asked)
      · intro heard index command found
        rw [marked.marks index command found]
        refine ⟨heard index, ?_⟩
        rintro ⟨event, member, accepts⟩
        exact accepted event member index accepts }

/-- A command that is registered before there is a host. -/
def unheard : List (Operation Handler Recording) :=
  [.command { id := "ext.a", title := some "A" } true, .register (.command 0) .echo]

/-- It counts as registered, and nobody is told that the host has never heard of it. -/
theorem unheard_counts_as_registered :
    ((fresh {}).after unheard).commands.map DeclaredCommand.isRegistered = [true] ∧
    ((fresh {}).history unheard).map (·.outcome) = [.ok (), .error .notAttached] ∧
    ((fresh {}).after unheard).hostState.2 = [] ∧
    ((fresh {}).after unheard).assertRegistered = (.ok (), (fresh {}).after unheard) :=
  ⟨rfl, rfl, rfl, (operations_report {} unheard).silent rfl⟩

end Extension.Registry
