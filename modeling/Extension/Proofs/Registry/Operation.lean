import Extension.Host.Recording
import Extension.Registry.Basic

namespace Extension

open Decision

/-! Operations on what an extension declares, in any order.

The host may fail at any request and in any way that depends on its own state.  It is watched: beside its state
stand the requests that it has met.
-/

namespace Host

variable {η σ : Type}

/-- Writes a request down if it was met. -/
def noted {α : Type} (request : Request) (log : List Request) (answered : Given α × σ) :
    Given α × (σ × List Request) :=
  match answered with
  | (.ok answer, state) => (.ok answer, state, log ++ [request])
  | (.error fault, state) => (.error fault, state, log)

/-- The same host, with the requests that it has met beside its state. -/
def watched (host : Host η σ) : Host η (σ × List Request) where
  execute command arguments state :=
    noted (.execute command arguments) state.2 (host.execute command arguments state.1)
  register command handler state := noted (.register command) state.2 (host.register command handler state.1)
  showError message state := noted (.showError message) state.2 (host.showError message state.1)

end Host

namespace Registry

open Host

inductive Operation (η σ : Type) where
  | command (descriptor : Manifest.Command String) (activates : Bool)
  | menu (id : String)
  | contextKey (name : Value)
  | attach (host : Host η σ)
  | detach
  | register (reference : Reference) (handler : η)
  | call (reference : Reference) (arguments : List Value)
  | assign (reference : Reference) (value : Value)
  | assertRegistered

/-- A registry whose host is watched. -/
abbrev Watched (η σ : Type) := Registry η (σ × List Request)

variable {η σ : Type}

def ended {α : Type} (attempt : Attempt η (σ × List Request) α) : Attempt η (σ × List Request) Unit :=
  (attempt.1.map fun _ => (), attempt.2)

def perform (registry : Watched η σ) : Operation η σ → Attempt η (σ × List Request) Unit
  | .command descriptor activates => (.ok (), (registry.addCommand descriptor activates).2)
  | .menu id => (.ok (), (registry.addMenu id).2)
  | .contextKey name => ended (registry.addContextKey name)
  | .attach host => (.ok (), registry.attach host.watched)
  | .detach => (.ok (), registry.detach)
  | .register reference handler => ended (registry.register reference handler)
  | .call reference arguments => ended (registry.call reference arguments)
  | .assign reference value => registry.assign reference value
  | .assertRegistered => registry.assertRegistered

/-- Nothing is declared, no host is attached, and the one that will be has not been asked for anything. -/
def fresh (state : σ) : Watched η σ :=
  { hostState := (state, []) }

/-- The registry after the operations, those that fail included. -/
def after (registry : Watched η σ) (operations : List (Operation η σ)) : Watched η σ :=
  operations.foldl (fun registry operation => (registry.perform operation).2) registry

/-- An operation with the registry that it was performed on and what it came to. -/
structure Event (η σ : Type) where
  before : Watched η σ
  operation : Operation η σ
  outcome : Except Failure Unit

def history (registry : Watched η σ) : List (Operation η σ) → List (Event η σ)
  | [] => []
  | operation :: operations =>
      { before := registry, operation, outcome := (registry.perform operation).1 } ::
        history (registry.perform operation).2 operations

theorem after_nil (registry : Watched η σ) : registry.after [] = registry := rfl

theorem after_cons (registry : Watched η σ) (operation : Operation η σ) (operations : List (Operation η σ)) :
    registry.after (operation :: operations) = (registry.perform operation).2.after operations := rfl

/-- Asking the host changes nothing but the state of the host. -/
theorem ask_cases {τ α : Type} (registry : Registry η τ) (request : Host η τ → τ → Given α × τ) :
    (registry.host = none ∧ registry.ask request = (.error .notAttached, registry)) ∨
    ∃ host, registry.host = some host ∧
      registry.ask request = ((request host registry.hostState).1.mapError .fault,
        { registry with hostState := (request host registry.hostState).2 }) := by
  cases attached : registry.host with
  | none => exact .inl ⟨rfl, by simp only [ask, attached]⟩
  | some host => exact .inr ⟨host, rfl, by simp only [ask, attached]⟩

@[simp] theorem ask_commands {τ α : Type} (registry : Registry η τ) (request : Host η τ → τ → Given α × τ) :
    (registry.ask request).2.commands = registry.commands := by
  rcases registry.ask_cases request with ⟨_, asked⟩ | ⟨host, _, asked⟩ <;> rw [asked]

@[simp] theorem ask_contextKeys {τ α : Type} (registry : Registry η τ) (request : Host η τ → τ → Given α × τ) :
    (registry.ask request).2.contextKeys = registry.contextKeys := by
  rcases registry.ask_cases request with ⟨_, asked⟩ | ⟨host, _, asked⟩ <;> rw [asked]

/-- The ways in which giving a declared context key a value can end. -/
inductive Assigned {τ : Type} (registry : Registry η τ) (index : Nat) (key : ContextKey) (value : Value) :
    Attempt η τ Unit → Prop
  | unchanged (current : isCurrent key.value value = true) : Assigned registry index key value (.ok (), registry)
  | unattached (changes : isCurrent key.value value = false) (detached : registry.host = none) :
      Assigned registry index key value (.error .notAttached, registry)
  | refused {host : Host η τ} {fault : Fault} {hostState : τ} (changes : isCurrent key.value value = false)
      (attached : registry.host = some host)
      (refuses : host.execute "setContext" [.text key.name, value] registry.hostState = (.error fault, hostState)) :
      Assigned registry index key value (.error (.fault fault), { registry with hostState })
  | delivered {host : Host η τ} {answer : Value} {hostState : τ} (changes : isCurrent key.value value = false)
      (attached : registry.host = some host)
      (accepts : host.execute "setContext" [.text key.name, value] registry.hostState = (.ok answer, hostState)) :
      Assigned registry index key value (.ok (), { registry with
        hostState
        contextKeys := registry.contextKeys.set index { key with value }
        notices := registry.notices ++ [.keySet key.name value] })

theorem assign_assigned {τ : Type} {registry : Registry η τ} {index : Nat} {key : ContextKey}
    (found : registry.contextKeys[index]? = some key) (value : Value) :
    Assigned registry index key value (registry.assign (.contextKey index) value) := by
  simp only [assign, contextKey?, found]
  cases current : isCurrent key.value value with
  | true => exact .unchanged current
  | false =>
      rw [if_neg Bool.false_ne_true]
      rcases registry.ask_cases fun host => host.execute "setContext" [.text key.name, value] with
        ⟨detached, asked⟩ | ⟨host, attached, asked⟩
      · rw [asked]
        exact .unattached current detached
      · rcases answered : host.execute "setContext" [.text key.name, value] registry.hostState with
          ⟨fault | answer, hostState⟩
        · rw [asked, answered]
          exact .refused current attached answered
        · rw [asked, answered]
          exact .delivered current attached answered

/-- What is no declared context key cannot be given a value. -/
theorem assign_undeclared {τ : Type} (registry : Registry η τ) {reference : Reference}
    (undeclared : ∀ index key, reference = .contextKey index → registry.contextKeys[index]? ≠ some key)
    (value : Value) : ∃ failure, registry.assign reference value = (.error failure, registry) := by
  cases reference with
  | contextKey index =>
      have absent : registry.contextKeys[index]? = none :=
        Option.eq_none_iff_forall_ne_some.mpr fun key => undeclared index key rfl
      exact ⟨.unknown (toString index), by simp only [assign, contextKey?, absent]⟩
  | command index => exact ⟨_, rfl⟩
  | external id => exact ⟨_, rfl⟩
  | menu index => exact ⟨_, rfl⟩

/-- Only declaring and registering commands changes the commands, and only declaring and assigning context keys
changes the context keys. -/
theorem perform_keeps (registry : Watched η σ) (operation : Operation η σ) :
    ((∀ descriptor activates, operation ≠ .command descriptor activates) →
      (∀ reference handler, operation ≠ .register reference handler) →
      (registry.perform operation).2.commands = registry.commands) ∧
    ((∀ name, operation ≠ .contextKey name) → (∀ reference value, operation ≠ .assign reference value) →
      (registry.perform operation).2.contextKeys = registry.contextKeys) := by
  cases operation with
  | command descriptor activates => exact ⟨fun declares => absurd rfl (declares descriptor activates), fun _ _ => rfl⟩
  | menu id => exact ⟨fun _ _ => rfl, fun _ _ => rfl⟩
  | attach host => exact ⟨fun _ _ => rfl, fun _ _ => rfl⟩
  | detach => exact ⟨fun _ _ => rfl, fun _ _ => rfl⟩
  | contextKey name =>
      refine ⟨fun _ _ => ?_, fun declares => absurd rfl (declares name)⟩
      simp only [perform, ended, addContextKey]
      split <;> rfl
  | register reference handler =>
      refine ⟨fun _ registers => absurd rfl (registers reference handler), fun _ _ => ?_⟩
      simp only [perform, ended, register]
      split
      · rfl
      · rw [ask_contextKeys]
  | call reference arguments =>
      simp only [perform, ended, call]
      split
      · exact ⟨fun _ _ => rfl, fun _ _ => rfl⟩
      · rw [ask_commands, ask_contextKeys]
        exact ⟨fun _ _ => rfl, fun _ _ => rfl⟩
  | assign reference value =>
      refine ⟨fun _ _ => ?_, fun _ assigns => absurd rfl (assigns reference value)⟩
      by_cases known : ∃ (index : Nat) (key : ContextKey), reference = .contextKey index ∧
        registry.contextKeys[index]? = some key
      · obtain ⟨index, key, rfl, found⟩ := known
        have assigned := assign_assigned found value
        rw [perform]
        generalize registry.assign (.contextKey index) value = attempt at assigned ⊢
        cases assigned <;> rfl
      · obtain ⟨failure, same⟩ := registry.assign_undeclared
          (fun index key is found => known ⟨index, key, is, found⟩) value
        rw [perform, same]
  | assertRegistered =>
      rw [perform, assertRegistered]
      split
      · exact ⟨fun _ _ => rfl, fun _ _ => rfl⟩
      · split
        · rw [ask_commands, ask_contextKeys]
          exact ⟨fun _ _ => rfl, fun _ _ => rfl⟩
        · exact ⟨fun _ _ => rfl, fun _ _ => rfl⟩

end Registry

end Extension
