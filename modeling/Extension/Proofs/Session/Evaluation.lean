import Extension.Proofs.Session.Execution
import Extension.Proofs.Session.Tracking

namespace Extension.Session

open Decision

/-! Exploring an expression is the execution of its call.

Each function that runs a session comes to where the execution does in which every call of a rule starts as its
expression says.  So none of the bounds that these functions are given is ever reached.
-/

variable {σ : Type} (step : σ → Stretch σ)

abbrev Evaluates : Execution σ → Execution σ → Prop :=
  Reaches step Member.IsStart

def Ending.stretch : Ending σ → Stretch σ
  | .read test next => .read test next
  | .finish value => .finish value

/-- Where code has come to: a place in the code, or a fault with which its exploration is left. -/
def comesTo (calls : List String) (waiting : List (String → Stretch σ)) : Reached σ (Stretch σ) → Execution σ
  | (.ok stretch, after) => ⟨after, calls, waiting, .code stretch⟩
  | (.error fault, after) => ⟨after.pop, calls, waiting, .leave (.error fault)⟩

def Driving.execution (driving : Driving σ) (calls : List String) (waiting : List (String → Stretch σ)) : Execution σ :=
  match driving.fault with
  | none => ⟨driving.session, calls, waiting, .drive⟩
  | some fault => ⟨driving.session.pop, calls, waiting, .leave (.error fault)⟩

/-- Compiling is the execution of a call, as long as no more than so many expressions are unlocked. -/
structure Compiles (nested : String → Session σ → Reached σ String) (depth : Nat) : Prop where
  nests : Nests nested depth
  evaluates : ∀ (name : String) (session : Session σ) (calls : List String) (waiting : List (String → Stretch σ)),
    Sane ⟨session, calls, .call name⟩ → session.members.length ≤ depth + calls.length →
      ∃ outcome : Except Fault Tree, (nested name session).1 = outcome.map Tree.clause ∧
        Evaluates step ⟨session, calls, waiting, .call name⟩ ⟨(nested name session).2, calls, waiting, .back outcome⟩

variable {step} {nested : String → Session σ → Reached σ String} {depth : Nat} {session after : Session σ}
  {name : String} {calls : List String} {waiting : List (String → Stretch σ)}

section Code

variable {own : Handle} {capacity made : Nat}

theorem Inside.go {stretch next : Stretch σ} (inside : Inside depth name calls session own capacity made)
    (goes : Goes own session stretch after next) :
    Evaluates step ⟨session, name :: calls, waiting, .code stretch⟩ ⟨after, name :: calls, waiting, .code next⟩ := by
  obtain ⟨innermost, rfl, _⟩ := inside.working
  exact .single (.go innermost goes)

theorem Inside.fail {stretch : Stretch σ} {fault : Fault} (inside : Inside depth name calls session own capacity made)
    (fails : Fails own session stretch after fault) :
    Evaluates step ⟨session, name :: calls, waiting, .code stretch⟩
      ⟨after.pop, name :: calls, waiting, .leave (.error fault)⟩ := by
  obtain ⟨innermost, rfl, _⟩ := inside.working
  exact .single (.fail innermost fails)

/-- Code that runs by itself is executed, up to its next test of its own, its end or a fault. -/
theorem runStretch_evaluates (compiles : Compiles step nested depth) (stretch : Stretch σ)
    (inside : Inside depth name calls session own capacity made) {outcome : Except Fault (Ending σ)}
    (ran : runStretch nested (some own) stretch session = (outcome, after)) :
    Evaluates step ⟨session, name :: calls, waiting, .code stretch⟩
      (comesTo (name :: calls) waiting (outcome.map Ending.stretch, after)) := by
  induction stretch generalizing session with
  | read test next =>
      obtain ⟨rfl, rfl⟩ := Prod.mk.inj ran
      exact .refl
  | finish value =>
      obtain ⟨rfl, rfl⟩ := Prod.mk.inj ran
      exact .refl
  | raise fault =>
      obtain ⟨rfl, rfl⟩ := Prod.mk.inj ran
      exact inside.fail (.raise fault)
  | readRemembered handle test next ih =>
      rw [runStretch] at ran
      rcases read : session.readThrough handle test with ⟨fault | answer, reached⟩
      · simp only [read] at ran
        obtain ⟨rfl, rfl⟩ := Prod.mk.inj ran
        exact inside.fail (.read read)
      · simp only [read] at ran
        have goes : Goes own session (.readRemembered handle test next) reached (next answer) := .read read
        exact (inside.go goes).trans (ih answer (inside.ran (goes.leads inside.sane)) ran)
  | compile callee next ih =>
      have asked : Step ⟨session, name :: calls, .foreign⟩ ⟨session, name :: calls, .call callee⟩ := .ask callee
      have sane := asked.sane inside.sane
      obtain ⟨_, led⟩ := compiles.nests callee session (name :: calls) sane inside.room
      obtain ⟨outcome', same, called⟩ :=
        compiles.evaluates callee session (name :: calls) (next :: waiting) sane inside.room
      have further := inside.ran (Ran.compiled led)
      have entered : Evaluates step ⟨session, name :: calls, waiting, .code (.compile callee next)⟩
          ⟨session, name :: calls, next :: waiting, .call callee⟩ := .single .compile
      rw [runStretch] at ran
      generalize nested callee session = result at ran same called further
      obtain ⟨clause, reached⟩ := result
      obtain rfl : clause = outcome'.map Tree.clause := same
      cases outcome' with
      | error fault =>
          obtain ⟨rfl, rfl⟩ := Prod.mk.inj ran
          exact entered.trans (called.tail .unwind)
      | ok tree => exact entered.trans ((called.tail .resume).trans (ih tree.clause further ran))
  | remember accessor slot next ih =>
      have goes : Goes own session (.remember accessor slot next) (session.remember slot (accessor.handle own)) next :=
        .remember accessor slot next
      refine (inside.go goes).trans (ih (inside.ran (goes.leads inside.sane)) ?_)
      cases accessor with
      | own => exact ran
      | remembered handle => exact ran
  | «recall» slot next ih =>
      rw [runStretch] at ran
      cases found : session.slots.lookup slot with
      | none =>
          simp only [found] at ran
          obtain ⟨rfl, rfl⟩ := Prod.mk.inj ran
          exact inside.fail (.recall found)
      | some handle =>
          simp only [found] at ran
          exact (inside.go (.recall found)).trans (ih handle inside ran)
  | change environment next ih =>
      have goes : Goes own session (.change environment next)
          (session.surround (environment session.environment)) next := .change environment next
      exact (inside.go goes).trans (ih (inside.ran (goes.leads inside.sane)) ran)

/-- A rule is executed to its end.  It makes no more tests than there is room for. -/
theorem runCall_evaluates (compiles : Compiles step nested depth) {budget : Nat} (state : σ)
    (enough : capacity ≤ made + budget) (inside : Inside depth name calls session own capacity made)
    {outcome : Except Fault Value} (ran : runCall step nested own budget state session = (outcome, after)) :
    Evaluates step ⟨session, name :: calls, waiting, .code (step state)⟩
      (comesTo (name :: calls) waiting (outcome.map .finish, after)) := by
  have stretched {state : σ} {session reached : Session σ} {made : Nat} {outcome : Except Fault (Ending σ)}
      (inside : Inside depth name calls session own capacity made)
      (ran : runStretch nested (some own) (step state) session = (outcome, reached)) :
      Inside depth name calls reached own capacity made := by
    have led := runStretch_leads compiles.nests (some own) (step state) inside.sane inside.room
    rw [ran] at led
    exact inside.ran led
  fun_induction runCall step nested own budget state session generalizing made with
  | case1 budget state session fault reached stopped =>
      obtain ⟨rfl, rfl⟩ := Prod.mk.inj ran
      exact runStretch_evaluates compiles _ inside stopped
  | case2 budget state session value reached stopped =>
      obtain ⟨rfl, rfl⟩ := Prod.mk.inj ran
      exact runStretch_evaluates compiles _ inside stopped
  | case3 budget state session test next reached stopped fault after refused =>
      obtain ⟨rfl, rfl⟩ := Prod.mk.inj ran
      exact (runStretch_evaluates compiles _ inside stopped).trans ((stretched inside stopped).fail (.test refused))
  | case4 state session test next reached stopped answer after answered =>
      obtain ⟨_, _, fits⟩ := (stretched inside stopped).test answered
      omega
  | case5 state session test next reached stopped answer after answered budget ih =>
      have there := stretched inside stopped
      obtain ⟨_, further, _⟩ := there.test answered
      obtain ⟨innermost, named, _⟩ := there.working
      have tested : Evaluates step ⟨reached, name :: calls, waiting, .code (.read test next)⟩
          ⟨after, name :: calls, waiting, .code (step (next answer))⟩ :=
        .single (.test innermost (by rw [named]; exact answered))
      refine (runStretch_evaluates compiles _ inside stopped).trans (tested.trans ?_)
      exact ih (by omega) further ran

end Code

section Driving

variable {first : Moment σ} {capacity count : Nat} {outer : List Frame} {driving : Driving σ}

theorem runNextPass_evaluates (compiles : Compiles step nested depth) (sane : Sane first)
    (room : first.session.members.length ≤ depth + (calls.length + 1))
    (driven : Driven first name calls capacity outer count driving) (busy : driving.isBusy = true) :
    Evaluates step (driving.execution (name :: calls) waiting)
      ((runNextPass step nested driving).execution (name :: calls) waiting) := by
  cases driven with
  | failed => simp [Driving.isBusy] at busy
  | @between session frame rest within frames limit counted fixed =>
      have here := (Within.steps within).sane sane
      cases queued : frame.exploration.queue with
      | nil => simp [Driving.isBusy, frames, queued] at busy
      | cons assignment queue =>
          have named : frame.name = name := by
            cases here.framed with
            | drive innermost named =>
                obtain ⟨rfl, rfl⟩ := List.cons.inj (frames.symm.trans innermost)
                exact named
          obtain ⟨member, found, _⟩ := Option.map_eq_some_iff.mp ((here.locked_iff name).mpr (List.mem_cons_self ..))
          have opened := within.tail ⟨.begin frames queued, Nat.le_refl _⟩
          have room' := Nat.le_trans (Nat.le_of_eq (Within.steps opened).members_length) room
          have inside : Inside depth name calls (session.openPass assignment) frame.handle frame.capacity 0 :=
            .opened frames ((Within.steps opened).sane sane) room'
          have begun : Evaluates step ⟨session, name :: calls, waiting, .drive⟩ ⟨session.openPass assignment,
              name :: calls, waiting, .code (step (member.expression.start (member.expression.calls + 1)))⟩ :=
            .single (.begin frames queued (by rw [named]; exact found) rfl)
          simp only [runNextPass, frames, queued, named, found]
          rcases ran : runCall step nested frame.handle frame.capacity
            (member.expression.start (member.expression.calls + 1)) (session.openPass assignment) with ⟨outcome, after⟩
          have led := runCall_leads step compiles.nests frame.handle frame.capacity
            (member.expression.start (member.expression.calls + 1)) inside.sane inside.room
          rw [ran] at led
          have further := inside.ran led
          have called := begun.trans
            (runCall_evaluates compiles _ (Nat.le_of_eq (Nat.zero_add _).symm) inside ran)
          cases outcome with
          | error fault => exact called
          | ok value =>
              cases closed : after.closePass value with
              | error fault =>
                  simp only [closed]
                  exact called.trans (further.fail (.finish closed))
              | ok ended =>
                  simp only [closed]
                  exact called.tail (.settle closed)

/-- An exploration is driven to its end within the capacity of the settings that it has loaded. -/
theorem push_evaluates (compiles : Compiles step nested depth) {member : Member σ} {settings : Settings}
    (found : session.member? name = some member)
    (current : member.expression.currentSettings session.environment = .ok settings)
    (sane : Sane ⟨session, name :: calls, .load⟩) (room : session.members.length ≤ depth + (calls.length + 1)) :
    ∃ count driving, settle Driving.isBusy (runNextPass step nested) (settings.maxAtoms + 1) 0
        { session := session.push name settings.maxAtoms } = driving ∧
      Driven ⟨session, name :: calls, .load⟩ name calls settings.maxAtoms session.frames count driving ∧
      driving.isBusy = false ∧
      Evaluates step ⟨session, name :: calls, waiting, .load⟩ (driving.execution (name :: calls) waiting) := by
  have loaded : Evaluates step ⟨session, name :: calls, waiting, .load⟩
      ⟨session.push name settings.maxAtoms, name :: calls, waiting, .drive⟩ := .single (.load found current)
  have begun : Driven ⟨session, name :: calls, .load⟩ name calls settings.maxAtoms session.frames 0
      { session := session.push name settings.maxAtoms } :=
    .between (.single ⟨.load found current, Nat.le_refl _⟩) rfl rfl rfl rfl
  obtain ⟨count, ended, done⟩ := begun.ended step compiles.nests sane room
  -- every pass leaves the exploration where the execution has come to, also the one that breaks it
  let invariant (driving : Driving σ) : Prop :=
    (∃ count, Driven ⟨session, name :: calls, .load⟩ name calls settings.maxAtoms session.frames count driving) ∧
      Evaluates step ⟨session, name :: calls, waiting, .load⟩ (driving.execution (name :: calls) waiting)
  have kept (driving : Driving σ) (holds : invariant driving) (busy : driving.isBusy = true) :
      invariant (runNextPass step nested driving) := by
    obtain ⟨⟨count, driven⟩, reached⟩ := holds
    exact ⟨⟨count + 1, driven.next step compiles.nests sane room busy⟩,
      reached.trans (runNextPass_evaluates compiles sane room driven busy)⟩
  have start : invariant { session := session.push name settings.maxAtoms } := ⟨⟨0, begun⟩, loaded⟩
  obtain ⟨_, reached⟩ := settle_kept kept start (settings.maxAtoms + 1) 0
  exact ⟨count, _, rfl, ended, done, reached⟩

theorem exploreLocked_evaluates (compiles : Compiles step nested depth) {expression : Expression σ} {locked : Bool}
    (found : session.member? name = some { expression, locked }) (sane : Sane ⟨session, name :: calls, .load⟩)
    (room : session.members.length ≤ depth + (calls.length + 1)) :
    Evaluates step ⟨session, name :: calls, waiting, .load⟩
      ⟨(exploreLocked step nested name expression session).2, name :: calls, waiting,
        .leave (exploreLocked step nested name expression session).1⟩ := by
  rw [exploreLocked]
  cases current : expression.currentSettings session.environment with
  | error fault => exact .single (.unset found current)
  | ok settings =>
      obtain ⟨count, driving, settled, ended, done, reached⟩ :=
        push_evaluates compiles found current sane room
      simp only [settled]
      cases ended with
      | failed within fixed => exact reached
      | @between session frame rest within frames limit counted fixed =>
          have empty : frame.exploration.queue = [] := by simpa [Driving.isBusy, frames] using done
          simp only [frames]
          exact reached.tail (.finish frames empty)

/-- An exploration that has a tree has run its last pass, within the capacity that it began with. -/
theorem exploreLocked_ok (waiting : List (String → Stretch σ)) (compiles : Compiles step nested depth)
    {expression : Expression σ} {locked : Bool} (found : session.member? name = some { expression, locked })
    (sane : Sane ⟨session, name :: calls, .load⟩)
    (room : session.members.length ≤ depth + (calls.length + 1)) {tree : Tree}
    (explored : exploreLocked step nested name expression session = (.ok tree, after)) :
    ∃ settings driven frame rest, expression.currentSettings session.environment = .ok settings ∧
      Evaluates step ⟨session, name :: calls, waiting, .load⟩ ⟨driven, name :: calls, waiting, .drive⟩ ∧
      driven.frames = frame :: rest ∧ frame.exploration.queue = [] ∧ frame.capacity = settings.maxAtoms ∧
      frame.exploration.tree = tree ∧ after = (driven.countPasses name frame.exploration.records.length).pop := by
  rw [exploreLocked] at explored
  cases current : expression.currentSettings session.environment with
  | error fault =>
      rw [current] at explored
      cases explored
  | ok settings =>
      obtain ⟨count, driving, settled, ended, done, reached⟩ :=
        push_evaluates compiles found current sane room
      simp only [current, settled] at explored
      cases ended with
      | failed within fixed => cases explored
      | @between driven frame rest within frames limit counted fixed =>
          have empty : frame.exploration.queue = [] := by simpa [Driving.isBusy, frames] using done
          simp only [frames] at explored
          obtain ⟨same, ended⟩ := Prod.mk.inj explored
          exact ⟨settings, driven, frame, rest, rfl, reached, frames, empty, limit, Except.ok.inj same, ended.symm⟩

theorem exploreWith_evaluates (compiles : Compiles step nested depth) (sane : Sane ⟨session, calls, .call name⟩)
    (room : session.members.length ≤ depth + (calls.length + 1)) :
    Evaluates step ⟨session, calls, waiting, .call name⟩
      ⟨(exploreWith step nested name session).2, calls, waiting, .back (exploreWith step nested name session).1⟩ := by
  rw [exploreWith]
  cases found : session.member? name with
  | none => exact .single (.unknown found)
  | some member =>
      simp only
      cases locked : member.locked with
      | true => exact .single (.refuse found locked)
      | false =>
          have entered : Step ⟨session, calls, .call name⟩ ⟨session.lock name, name :: calls, .load⟩ :=
            .enter found locked
          have length := Steps.members_length (.single entered)
          have called : Evaluates step ⟨session, calls, waiting, .call name⟩
              ⟨session.lock name, name :: calls, waiting, .load⟩ := .single (.enter found locked)
          refine called.trans (.tail ?_ .leave)
          exact exploreLocked_evaluates compiles (member?_lock found) (entered.sane sane)
            (Nat.le_trans (Nat.le_of_eq length) room)

end Driving

theorem Compiles.of_evaluates {depth : Nat}
    (evaluates : ∀ (name : String) (session : Session σ) (calls : List String) (waiting : List (String → Stretch σ)),
      Sane ⟨session, calls, .call name⟩ → session.members.length ≤ depth + calls.length →
        Evaluates step ⟨session, calls, waiting, .call name⟩ ⟨(exploreNested step depth name session).2, calls, waiting,
          .back (exploreNested step depth name session).1⟩) :
    Compiles step (fun name session =>
      let (tree, session) := exploreNested step depth name session
      (tree.map Tree.clause, session)) depth where
  nests name _ _ sane room := ⟨_, (exploreNested_serves step depth name sane room).leads⟩
  evaluates name session calls waiting sane room := ⟨_, rfl, evaluates name session calls waiting sane room⟩

variable (step) in
/-- The bound on the depth of nested explorations is not reached. -/
theorem exploreNested_evaluates (depth : Nat) (name : String) (session : Session σ) (calls : List String)
    (waiting : List (String → Stretch σ)) (sane : Sane ⟨session, calls, .call name⟩)
    (room : session.members.length ≤ depth + calls.length) :
    Evaluates step ⟨session, calls, waiting, .call name⟩
      ⟨(exploreNested step depth name session).2, calls, waiting, .back (exploreNested step depth name session).1⟩ := by
  induction depth generalizing name session calls waiting with
  | zero =>
      rw [exploreNested]
      cases found : session.member? name with
      | none => exact .single (.unknown found)
      | some member =>
          cases locked : member.locked with
          | true => exact .single (.refuse found locked)
          | false =>
              have more : calls.length < session.members.length :=
                calls_length_lt sane.locked_iff sane.distinct found locked
              omega
  | succ depth ih =>
      rw [exploreNested]
      exact exploreWith_evaluates (.of_evaluates ih) sane (by omega)

/-- Exploring an expression from outside is the execution of a call that comes back. -/
theorem explore_evaluates (step : σ → Stretch σ) (sane : Sane (idle session)) (name : String) :
    Evaluates step (asked session name)
      ⟨(session.explore step name).2, [], [], .back (session.explore step name).1⟩ := by
  have called : Step (idle session) ⟨session, [], .call name⟩ := .ask name
  exact exploreNested_evaluates step session.members.length name session [] [] (called.sane sane) (Nat.le_refl _)

end Extension.Session
