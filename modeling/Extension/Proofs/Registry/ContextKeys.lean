import Extension.Proofs.Registry.Operation
import Extension.Proofs.Value.Same

namespace Extension.Registry

open Decision Host

/-! Context keys, and what the host holds under their names.

A handle remembers the value that the host was last given through it, and leaves out what counts as this value.
The host holds one value for each name, so its value and the memory of a handle can part in two ways: a value can
count as another one without being it, and another handle can have the same name.
-/

/-- The value that a request gives to a name. -/
def contextChange? (name : String) : Request → Option Value
  | .execute command [.text key, value] => if command = "setContext" ∧ key = name then some value else none
  | _ => none

/-- The value that the host has last accepted under a name, or null if it has accepted none. -/
def heldByHost (log : List Request) (name : String) : Value :=
  (log.filterMap (contextChange? name)).getLast?.getD .null

theorem heldByHost_concat (log : List Request) (request : Request) (name : String) :
    heldByHost (log ++ [request]) name = (contextChange? name request).getD (heldByHost log name) := by
  cases change : contextChange? name request <;> simp [heldByHost, change]

variable {η σ : Type} {registry : Watched η σ} {index : Nat} {key : ContextKey} {value : Value}

/-- The value that the host holds under a name. -/
def held (registry : Watched η σ) (name : String) : Value :=
  heldByHost registry.hostState.2 name

/-- No other handle has the same name. -/
def Alone (registry : Watched η σ) (index : Nat) (key : ContextKey) : Prop :=
  ∀ (other : Nat) (found : ContextKey), registry.contextKeys[other]? = some found → found.name = key.name →
    other = index

/-- What the host holds and what the handles remember. -/
structure Follows (registry : Watched η σ) : Prop where
  watched : ∀ host, registry.host = some host → ∃ inner : Host η σ, host = inner.watched
  /-- The host holds what it was last given through one of the handles of the name. -/
  owned : ∀ name, registry.held name = .null ∨
    ∃ (index : Nat) (key : ContextKey), registry.contextKeys[index]? = some key ∧ key.name = name ∧
      key.value = registry.held name
  alone : ∀ (index : Nat) (key : ContextKey), registry.contextKeys[index]? = some key → Alone registry index key →
    registry.held key.name = key.value

theorem Follows.of_held {other : Watched η σ} (follows : Follows registry) (host : other.host = registry.host)
    (keys : other.contextKeys = registry.contextKeys) (same : ∀ name, other.held name = registry.held name) :
    Follows other where
  watched := by
    rw [host]
    exact follows.watched
  owned name := by
    rw [same, keys]
    exact follows.owned name
  alone index key := by
    rw [same, keys, Alone, keys]
    exact follows.alone index key

theorem noted_log {α : Type} (request : Request) (log : List Request) (answered : Given α × σ) :
    (noted request log answered).2.2 = log ∨ (noted request log answered).2.2 = log ++ [request] := by
  obtain ⟨fault | answer, state⟩ := answered
  · exact .inl rfl
  · exact .inr rfl

/-- A request that gives no name a value leaves everything as it was. -/
theorem Follows.ask {α : Type} (follows : Follows registry)
    {request : Host η (σ × List Request) → σ × List Request → Given α × (σ × List Request)} {asked : Request}
    (noting : ∀ inner state, ∃ answered, request (Host.watched inner) state = noted asked state.2 answered)
    (unrelated : ∀ name, contextChange? name asked = none) : Follows (registry.ask request).2 := by
  rcases registry.ask_cases request with ⟨_, same⟩ | ⟨host, attached, same⟩
  · rw [same]
    exact follows
  · rw [same]
    obtain ⟨inner, rfl⟩ := follows.watched host attached
    obtain ⟨answered, notes⟩ := noting inner registry.hostState
    refine follows.of_held rfl rfl fun name => ?_
    rw [held, held, notes]
    rcases noted_log asked registry.hostState.2 answered with kept | grown
    · rw [kept]
    · rw [grown, heldByHost_concat, unrelated, Option.getD_none]

theorem Follows.register (follows : Follows registry) (reference : Reference) (handler : η) :
    Follows (registry.register reference handler).2 := by
  rw [Registry.register]
  split
  · exact follows
  · apply Follows.ask
    · exact follows.of_held rfl rfl fun _ => rfl
    · exact fun inner state => ⟨_, rfl⟩
    · exact fun name => rfl

theorem Follows.assertRegistered (follows : Follows registry) : Follows registry.assertRegistered.2 := by
  rw [Registry.assertRegistered]
  split
  · exact follows
  · split
    · apply Follows.ask
      · exact follows.of_held rfl rfl fun _ => rfl
      · exact fun inner state => ⟨_, rfl⟩
      · exact fun name => rfl
    · exact follows

theorem Follows.declareKey (follows : Follows registry) (name : String) :
    Follows { registry with contextKeys := registry.contextKeys ++ [{ name }] } where
  watched := follows.watched
  owned wanted := by
    refine (follows.owned wanted).imp id ?_
    rintro ⟨index, key, found, named, same⟩
    exact ⟨index, key, (List.getElem?_append_left (List.getElem?_eq_some_iff.mp found).1).trans found, named, same⟩
  alone index key found single := by
    have kept (other : Nat) (old : ContextKey) (there : registry.contextKeys[other]? = some old)
        (named : old.name = key.name) : other = index := by
      refine single other old ?_ named
      exact (List.getElem?_append_left (List.getElem?_eq_some_iff.mp there).1).trans there
    rcases Nat.lt_or_ge index registry.contextKeys.length with earlier | later
    · have before : registry.contextKeys[index]? = some key := (List.getElem?_append_left earlier).symm.trans found
      exact follows.alone index key before kept
    · have last : key = { name } := by
        change (registry.contextKeys ++ [({ name } : ContextKey)])[index]? = some key at found
        rw [List.getElem?_append_right later, List.getElem?_singleton] at found
        split at found
        · exact (Option.some.inj found).symm
        · cases found
      -- nobody has used the name before, so the host has not heard of it
      rcases follows.owned key.name with none | ⟨other, old, there, named, _⟩
      · rw [last] at none ⊢
        exact none
      · have bound := (List.getElem?_eq_some_iff.mp there).1
        have same := kept other old there named
        omega

/-- The value that the host holds after a value was given to a handle without a fault. -/
def heldAfter (registry : Watched η σ) (key : ContextKey) (value : Value) : Value :=
  if isCurrent key.value value then registry.held key.name else value

theorem watched_accepts {inner : Host η σ} {command : String} {arguments : List Value} {answer : Value}
    {state after : σ × List Request} (accepts : inner.watched.execute command arguments state = (.ok answer, after)) :
    after.2 = state.2 ++ [.execute command arguments] := by
  rcases ran : inner.execute command arguments state.1 with ⟨fault | answer, reached⟩ <;>
    simp only [Host.watched, noted, ran] at accepts <;> cases accepts
  rfl

theorem watched_refuses {inner : Host η σ} {command : String} {arguments : List Value} {fault : Fault}
    {state after : σ × List Request} (refuses : inner.watched.execute command arguments state = (.error fault, after)) :
    after.2 = state.2 := by
  rcases ran : inner.execute command arguments state.1 with ⟨fault | answer, reached⟩ <;>
    simp only [Host.watched, noted, ran] at refuses <;> cases refuses
  rfl

/-- What becomes of the handles and of the host when a handle is given a value. -/
structure Gives (registry : Watched η σ) (index : Nat) (key : ContextKey) (value : Value)
    (attempt : Attempt η (σ × List Request) Unit) : Prop where
  host : attempt.2.host = registry.host
  failed : ∀ failure, attempt.1 = .error failure → attempt.2.contextKeys = registry.contextKeys ∧
    ∀ name, attempt.2.held name = registry.held name
  given : attempt.1 = .ok () →
    attempt.2.contextKeys = (if isCurrent key.value value then registry.contextKeys
      else registry.contextKeys.set index { key with value }) ∧
    ∀ name, attempt.2.held name = if name = key.name then registry.heldAfter key value else registry.held name

theorem Follows.gives (follows : Follows registry) (found : registry.contextKeys[index]? = some key) (value : Value) :
    Gives registry index key value (registry.assign (.contextKey index) value) := by
  have assigned := assign_assigned found value
  generalize registry.assign (.contextKey index) value = attempt at assigned ⊢
  cases assigned with
  | unchanged current =>
      refine ⟨rfl, nofun, fun _ => ⟨by rw [if_pos current], fun name => ?_⟩⟩
      rw [heldAfter, if_pos current]
      split
      · next same => rw [same]
      · rfl
  | unattached changes detached => exact ⟨rfl, fun _ _ => ⟨rfl, fun _ => rfl⟩, nofun⟩
  | refused changes attached refuses =>
      obtain ⟨inner, rfl⟩ := follows.watched _ attached
      refine ⟨rfl, fun _ _ => ⟨rfl, fun name => ?_⟩, nofun⟩
      rw [held, held, watched_refuses refuses]
  | delivered changes attached accepts =>
      obtain ⟨inner, rfl⟩ := follows.watched _ attached
      refine ⟨rfl, nofun, fun _ => ⟨by rw [changes]; rfl, fun name => ?_⟩⟩
      rw [heldAfter, changes, if_neg Bool.false_ne_true, held, held, watched_accepts accepts, heldByHost_concat]
      by_cases same : name = key.name
      · simp [contextChange?, same]
      · simp [contextChange?, same, Ne.symm same]

/-- The host and a handle with a new value that the host has accepted. -/
theorem Follows.deliver (follows : Follows registry) (found : registry.contextKeys[index]? = some key) {value : Value}
    {after : Watched η σ} (host : after.host = registry.host)
    (keys : after.contextKeys = registry.contextKeys.set index { key with value })
    (same : ∀ name, after.held name = if name = key.name then value else registry.held name) : Follows after := by
  have bound := (List.getElem?_eq_some_iff.mp found).1
  have here : after.contextKeys[index]? = some { key with value } := by
    rw [keys, List.getElem?_set_self bound]
  have there {other : Nat} (differ : index ≠ other) : after.contextKeys[other]? = registry.contextKeys[other]? := by
    rw [keys, List.getElem?_set_ne differ]
  refine ⟨by rw [host]; exact follows.watched, fun name => ?_, fun other old standing single => ?_⟩
  · rw [same]
    by_cases named : name = key.name
    · rw [if_pos named]
      exact .inr ⟨index, _, here, named.symm, rfl⟩
    · rw [if_neg named]
      refine (follows.owned name).imp id ?_
      rintro ⟨other, old, standing, rfl, holds⟩
      have differ : index ≠ other := by
        rintro rfl
        exact named (congrArg ContextKey.name (Option.some.inj (standing.symm.trans found)))
      exact ⟨other, old, (there differ).trans standing, rfl, holds⟩
  · rw [same]
    by_cases differ : index = other
    · subst differ
      obtain rfl := Option.some.inj (here.symm.trans standing)
      exact if_pos rfl
    · rw [there differ] at standing
      have named : key.name ≠ old.name := fun named => differ (single index _ here named)
      rw [if_neg named.symm]
      refine follows.alone other old standing fun third other met shared => ?_
      have apart : index ≠ third := by
        rintro rfl
        obtain rfl := Option.some.inj (found.symm.trans met)
        exact named shared
      exact single third other ((there apart).trans met) shared

theorem Follows.assign (follows : Follows registry) (reference : Reference) (value : Value) :
    Follows (registry.assign reference value).2 := by
  by_cases known : ∃ (index : Nat) (key : ContextKey), reference = .contextKey index ∧
    registry.contextKeys[index]? = some key
  · obtain ⟨index, key, rfl, found⟩ := known
    have gives := follows.gives found value
    generalize registry.assign (.contextKey index) value = attempt at gives ⊢
    obtain ⟨failure | ⟨⟩, after⟩ := attempt
    · obtain ⟨keys, same⟩ := gives.failed failure rfl
      exact follows.of_held gives.host keys same
    · obtain ⟨keys, same⟩ := gives.given rfl
      cases current : isCurrent key.value value with
      | true =>
          simp only [current, if_true, heldAfter] at keys same
          refine follows.of_held gives.host keys fun name => (same name).trans ?_
          split
          · next named => rw [named]
          · rfl
      | false =>
          simp only [current, Bool.false_eq_true, if_false, heldAfter] at keys same
          exact follows.deliver found gives.host keys same
  · obtain ⟨failure, same⟩ := registry.assign_undeclared
      (fun index key is found => known ⟨index, key, is, found⟩) value
    rw [same]
    exact follows

theorem Follows.perform (follows : Follows registry) (operation : Operation η σ)
    (uncalled : ∀ reference arguments, operation ≠ .call reference arguments) :
    Follows (registry.perform operation).2 := by
  cases operation with
  | command descriptor activates => exact follows.of_held rfl rfl fun _ => rfl
  | menu id => exact follows.of_held rfl rfl fun _ => rfl
  | contextKey name =>
      simp only [Registry.perform, ended, addContextKey]
      split
      · exact follows.declareKey _
      · exact follows
      · exact follows
  | attach host => exact ⟨fun _ attached => ⟨host, (Option.some.inj attached).symm⟩, follows.owned, follows.alone⟩
  | detach =>
      refine ⟨fun _ attached => ?_, follows.owned, follows.alone⟩
      cases attached
  | register reference handler => exact follows.register reference handler
  | call reference arguments => exact absurd rfl (uncalled reference arguments)
  | assign reference value => exact follows.assign reference value
  | assertRegistered => exact follows.assertRegistered

theorem Follows.after (follows : Follows registry) (operations : List (Operation η σ))
    (uncalled : ∀ reference arguments, .call reference arguments ∉ operations) :
    Follows (registry.after operations) := by
  induction operations generalizing registry with
  | nil => exact follows
  | cons operation operations ih =>
      refine ih (follows.perform operation fun reference arguments called => ?_) fun reference arguments called => ?_
      · exact uncalled reference arguments (called ▸ List.mem_cons_self)
      · exact uncalled reference arguments (List.mem_cons_of_mem _ called)

theorem follows_fresh (state : σ) : Follows (fresh state : Watched η σ) :=
  ⟨fun host attached => by simp [fresh] at attached, fun _ => .inl rfl,
    fun index key found => by simp [fresh] at found⟩

theorem isCurrent_refl (plain : value.Plain) : isCurrent value value = true := by
  rw [isCurrent, Value.same_refl value plain, beq_self_eq_true]
  rfl

theorem eq_of_isCurrent {value remembered : Value} (atom : value.IsAtom) (current : isCurrent remembered value = true) :
    remembered = value := by
  rw [isCurrent, Bool.and_eq_true] at current
  exact atom.eq_of_same (eq_of_beq current.1) current.2

theorem isCurrent_iff {value remembered : Value} (atom : value.IsAtom) :
    isCurrent remembered value = true ↔ remembered = value := by
  constructor
  · exact eq_of_isCurrent atom
  · rintro rfl
    exact isCurrent_refl atom.plain

/-- What giving a value to the only handle of a name comes to. -/
structure Reaches (registry : Watched η σ) (index : Nat) (key : ContextKey) (value : Value) : Prop where
  inStep : registry.held key.name = key.value
  failed : ∀ failure, (registry.assign (.contextKey index) value).1 = .error failure →
    (registry.assign (.contextKey index) value).2.contextKeys = registry.contextKeys
  /-- The host holds the value, unless the handle remembered another one that counts as the same. -/
  reaches_iff : (registry.assign (.contextKey index) value).1 = .ok () →
    ((registry.assign (.contextKey index) value).2.held key.name = value ↔
      ¬ (isCurrent key.value value = true ∧ key.value ≠ value))
  counts : (registry.assign (.contextKey index) value).1 = .ok () → value.Plain →
    isCurrent ((registry.assign (.contextKey index) value).2.held key.name) value = true
  atom : (registry.assign (.contextKey index) value).1 = .ok () → value.IsAtom →
    (registry.assign (.contextKey index) value).2.held key.name = value
  repeated : key.value = value → value.Plain → registry.assign (.contextKey index) value = (.ok (), registry)

/-- Values reach the host through the only handle of a name up to what counts as the same value. -/
theorem only_handle_reaches (state : σ) (operations : List (Operation η σ))
    (uncalled : ∀ reference arguments, .call reference arguments ∉ operations)
    (found : ((fresh state).after operations).contextKeys[index]? = some key)
    (alone : Alone ((fresh state).after operations) index key) (value : Value) :
    Reaches ((fresh state).after operations) index key value := by
  have follows := (follows_fresh state).after operations uncalled
  generalize (fresh state).after operations = registry at follows found alone ⊢
  have inStep := follows.alone index key found alone
  have gives := follows.gives found value
  have assigned := assign_assigned found value
  have reached (ok : (registry.assign (.contextKey index) value).1 = .ok ()) :
      (registry.assign (.contextKey index) value).2.held key.name =
        if isCurrent key.value value then key.value else value := by
    rw [(gives.given ok).2, if_pos rfl, heldAfter, inStep]
  refine {
    inStep
    failed := fun failure failed => (gives.failed failure failed).1
    reaches_iff := fun ok => ?_
    counts := fun ok plain => ?_
    atom := fun ok atom => ?_
    repeated := fun same plain => ?_ }
  · rw [reached ok]
    cases current : isCurrent key.value value <;> simp
  · rw [reached ok]
    cases current : isCurrent key.value value with
    | true => exact current
    | false => exact isCurrent_refl plain
  · rw [reached ok]
    cases current : isCurrent key.value value with
    | true => exact eq_of_isCurrent atom current
    | false => rfl
  · have current : isCurrent key.value value = true := by
      rw [same]
      exact isCurrent_refl plain
    generalize registry.assign (.contextKey index) value = attempt at assigned ⊢
    cases assigned with
    | unchanged => rfl
    | unattached changes => exact absurd current (by rw [changes]; exact Bool.false_ne_true)
    | refused changes => exact absurd current (by rw [changes]; exact Bool.false_ne_true)
    | delivered changes => exact absurd current (by rw [changes]; exact Bool.false_ne_true)

/-- A list of a number, given to the only handle of a name. -/
def listGiven : List (Operation Handler Recording) :=
  [.contextKey (.text "k"), .attach recording, .assign (.contextKey 0) (.list [.int 1])]

/-- A list of a truth value that equals the number does not reach the host. -/
theorem equal_list_lost :
    (((fresh {}).after listGiven).assign (.contextKey 0) (.list [.bool true])).1 = .ok () ∧
    (((fresh {}).after listGiven).assign (.contextKey 0) (.list [.bool true])).2.held "k" ≠ .list [.bool true] := by
  have found : ((fresh ({} : Recording)).after listGiven).contextKeys[0]? = some ⟨"k", .list [.int 1]⟩ := rfl
  have uncalled (reference : Reference) (arguments : List Value) : .call reference arguments ∉ listGiven := by
    simp [listGiven]
  have alone : Alone ((fresh {}).after listGiven) 0 ⟨"k", .list [.int 1]⟩ := by
    intro other key there _
    rcases other with _ | other
    · rfl
    · cases there
  have current : isCurrent (.list [.int 1]) (.list [.bool true]) = true := by decide
  have ok : (((fresh {}).after listGiven).assign (.contextKey 0) (.list [.bool true])).1 = .ok () := by
    simp only [assign, contextKey?, found, current, if_true]
  have reaches := only_handle_reaches ({} : Recording) listGiven uncalled found alone (.list [.bool true])
  refine ⟨ok, fun held => ?_⟩
  exact (reaches.reaches_iff ok).mp held ⟨current, by simp⟩

end Extension.Registry
