import Extension.Proofs.Session.Simulation

namespace Extension

open Decision

/-! Executions of a session, without any bound.

Here the code of each rule is known, and what goes on is fixed but for the states that its calls start in: these may
depend on anything, on earlier calls as well as on what others do while the call waits.  Code that compiles an
expression waits, with all code further out, until the call comes back.  A fault that comes back to waiting code is
passed on.
-/

namespace Session

variable {σ : Type}

inductive Doing (σ : Type) where
  | code (stretch : Stretch σ)
  | call (name : String)
  | load
  | drive
  | leave (outcome : Except Fault Tree)
  | back (outcome : Except Fault Tree)

def Doing.control : Doing σ → Control
  | .code _ => .foreign
  | .call name => .call name
  | .load => .load
  | .drive => .drive
  | .leave outcome => .leave outcome
  | .back outcome => .back outcome

structure Execution (σ : Type) where
  session : Session σ
  /-- The expressions whose explorations are in progress, innermost first. -/
  calls : List String
  /-- How waiting code goes on with a clause, innermost first. -/
  waiting : List (String → Stretch σ)
  doing : Doing σ

def Execution.moment (execution : Execution σ) : Moment σ :=
  ⟨execution.session, execution.calls, execution.doing.control⟩

/-- A call from outside. -/
def asked (session : Session σ) (name : String) : Execution σ :=
  ⟨session, [], [], .call name⟩

def remember (session : Session σ) (slot : String) (handle : Handle) : Session σ :=
  { session with slots := (slot, handle) :: session.slots }

def surround (session : Session σ) (environment : Environment) : Session σ :=
  { session with environment }

end Session

def Accessor.handle (own : Handle) : Accessor → Handle
  | .own => own
  | .remembered handle => handle

namespace Session

variable {σ : Type} (own : Handle)

/-- What code does by itself, with an accessor of its own. -/
inductive Goes : Session σ → Stretch σ → Session σ → Stretch σ → Prop
  | read {session after : Session σ} {handle : Handle} {test : Test} {answer : Bool} {next : Bool → Stretch σ}
      (read : session.readThrough handle test = (.ok answer, after)) :
      Goes session (.readRemembered handle test next) after (next answer)
  | remember {session : Session σ} (accessor : Accessor) (slot : String) (next : Stretch σ) :
      Goes session (.remember accessor slot next) (session.remember slot (accessor.handle own)) next
  | recall {session : Session σ} {slot : String} {handle : Handle} {next : Handle → Stretch σ}
      (found : session.slots.lookup slot = some handle) : Goes session (.recall slot next) session (next handle)
  | change {session : Session σ} (environment : Environment → Environment) (next : Stretch σ) :
      Goes session (.change environment next) (session.surround (environment session.environment)) next

/-- How code fails by itself. -/
inductive Fails : Session σ → Stretch σ → Session σ → Fault → Prop
  | test {session after : Session σ} {test : Test} {fault : Fault} {next : Bool → σ}
      (read : session.readThrough own test = (.error fault, after)) : Fails session (.read test next) after fault
  | read {session after : Session σ} {handle : Handle} {test : Test} {fault : Fault} {next : Bool → Stretch σ}
      (read : session.readThrough handle test = (.error fault, after)) :
      Fails session (.readRemembered handle test next) after fault
  | recall {session : Session σ} {slot : String} {next : Handle → Stretch σ}
      (missing : session.slots.lookup slot = none) : Fails session (.recall slot next) session (Rule.unknown slot)
  | raise {session : Session σ} (fault : Fault) : Fails session (.raise fault) session fault
  | finish {session : Session σ} {value : Value} {fault : Fault} (refused : session.closePass value = .error fault) :
      Fails session (.finish value) session fault

variable (step : σ → Stretch σ) (begins : Member σ → σ → Prop)

/-- One step of an execution.  A call of an expression's rule starts in any of the states that it may begin in. -/
inductive Proceeds : Execution σ → Execution σ → Prop
  | go {session after : Session σ} {calls : List String} {waiting : List (String → Stretch σ)} {frame : Frame}
      {outer : List Frame} {stretch next : Stretch σ} (innermost : session.frames = frame :: outer)
      (goes : Goes frame.handle session stretch after next) :
      Proceeds ⟨session, calls, waiting, .code stretch⟩ ⟨after, calls, waiting, .code next⟩
  | test {session after : Session σ} {calls : List String} {waiting : List (String → Stretch σ)} {frame : Frame}
      {outer : List Frame} {test : Test} {answer : Bool} {next : Bool → σ} (innermost : session.frames = frame :: outer)
      (read : session.readThrough frame.handle test = (.ok answer, after)) :
      Proceeds ⟨session, calls, waiting, .code (.read test next)⟩ ⟨after, calls, waiting, .code (step (next answer))⟩
  | compile {session : Session σ} {calls : List String} {waiting : List (String → Stretch σ)} {name : String}
      {next : String → Stretch σ} :
      Proceeds ⟨session, calls, waiting, .code (.compile name next)⟩ ⟨session, calls, next :: waiting, .call name⟩
  | settle {session after : Session σ} {calls : List String} {waiting : List (String → Stretch σ)} {name : String}
      {value : Value} (closed : session.closePass value = .ok after) :
      Proceeds ⟨session, name :: calls, waiting, .code (.finish value)⟩ ⟨after, name :: calls, waiting, .drive⟩
  | fail {session after : Session σ} {calls : List String} {waiting : List (String → Stretch σ)} {name : String}
      {frame : Frame} {outer : List Frame} {stretch : Stretch σ} {fault : Fault}
      (innermost : session.frames = frame :: outer) (fails : Fails frame.handle session stretch after fault) :
      Proceeds ⟨session, name :: calls, waiting, .code stretch⟩
        ⟨after.pop, name :: calls, waiting, .leave (.error fault)⟩
  | unknown {session : Session σ} {calls : List String} {waiting : List (String → Stretch σ)} {name : String}
      (absent : session.member? name = none) :
      Proceeds ⟨session, calls, waiting, .call name⟩ ⟨session, calls, waiting, .back (.error (Rule.unknown name))⟩
  | refuse {session : Session σ} {calls : List String} {waiting : List (String → Stretch σ)} {name : String}
      {member : Member σ} (found : session.member? name = some member) (locked : member.locked = true) :
      Proceeds ⟨session, calls, waiting, .call name⟩
        ⟨session, calls, waiting, .back (.error (.alreadyCompiling member.expression.name))⟩
  | enter {session : Session σ} {calls : List String} {waiting : List (String → Stretch σ)} {name : String}
      {member : Member σ} (found : session.member? name = some member) (unlocked : member.locked = false) :
      Proceeds ⟨session, calls, waiting, .call name⟩ ⟨session.lock name, name :: calls, waiting, .load⟩
  | load {session : Session σ} {calls : List String} {waiting : List (String → Stretch σ)} {name : String}
      {member : Member σ} {settings : Settings} (found : session.member? name = some member)
      (current : member.expression.currentSettings session.environment = .ok settings) :
      Proceeds ⟨session, name :: calls, waiting, .load⟩
        ⟨session.push name settings.maxAtoms, name :: calls, waiting, .drive⟩
  | unset {session : Session σ} {calls : List String} {waiting : List (String → Stretch σ)} {name : String}
      {member : Member σ} {fault : Fault} (found : session.member? name = some member)
      (wrong : member.expression.currentSettings session.environment = .error fault) :
      Proceeds ⟨session, name :: calls, waiting, .load⟩ ⟨session, name :: calls, waiting, .leave (.error fault)⟩
  | begin {session : Session σ} {calls : List String} {waiting : List (String → Stretch σ)} {frame : Frame}
      {outer : List Frame} {assignment : Nat} {queue : List Nat} {member : Member σ} {state : σ}
      (innermost : session.frames = frame :: outer) (queued : frame.exploration.queue = assignment :: queue)
      (found : session.member? frame.name = some member) (starts : begins member state) :
      Proceeds ⟨session, calls, waiting, .drive⟩ ⟨session.openPass assignment, calls, waiting, .code (step state)⟩
  | finish {session : Session σ} {calls : List String} {waiting : List (String → Stretch σ)} {name : String}
      {frame : Frame} {outer : List Frame} (innermost : session.frames = frame :: outer)
      (empty : frame.exploration.queue = []) :
      Proceeds ⟨session, name :: calls, waiting, .drive⟩
        ⟨(session.countPasses name frame.exploration.records.length).pop, name :: calls, waiting,
          .leave (.ok frame.exploration.tree)⟩
  | leave {session : Session σ} {calls : List String} {waiting : List (String → Stretch σ)} {name : String}
      {outcome : Except Fault Tree} :
      Proceeds ⟨session, name :: calls, waiting, .leave outcome⟩ ⟨session.unlock name, calls, waiting, .back outcome⟩
  | resume {session : Session σ} {calls : List String} {waiting : List (String → Stretch σ)}
      {next : String → Stretch σ} {tree : Tree} :
      Proceeds ⟨session, calls, next :: waiting, .back (.ok tree)⟩ ⟨session, calls, waiting, .code (next tree.clause)⟩
  | unwind {session : Session σ} {calls : List String} {waiting : List (String → Stretch σ)} {name : String}
      {next : String → Stretch σ} {fault : Fault} :
      Proceeds ⟨session, name :: calls, next :: waiting, .back (.error fault)⟩
        ⟨session.pop, name :: calls, waiting, .leave (.error fault)⟩

abbrev Reaches : Execution σ → Execution σ → Prop :=
  Relation.ReflTransGen (Proceeds step begins)

/-- Code that a rule may come to. -/
inductive Occurs : Stretch σ → Prop
  | start (state : σ) : Occurs (step state)
  | read {handle : Handle} {test : Test} {next : Bool → Stretch σ} (before : Occurs (.readRemembered handle test next))
      (answer : Bool) : Occurs (next answer)
  | compile {name : String} {next : String → Stretch σ} (before : Occurs (.compile name next)) (clause : String) :
      Occurs (next clause)
  | remember {accessor : Accessor} {slot : String} {next : Stretch σ} (before : Occurs (.remember accessor slot next)) :
      Occurs next
  | recall {slot : String} {next : Handle → Stretch σ} (before : Occurs (.recall slot next)) (handle : Handle) :
      Occurs (next handle)
  | change {environment : Environment → Environment} {next : Stretch σ} (before : Occurs (.change environment next)) :
      Occurs next

/-- The code of an execution is that of its rules, where it runs and where it waits. -/
structure Rooted (execution : Execution σ) : Prop where
  code : ∀ stretch, execution.doing = .code stretch → Occurs step stretch
  waiting : ∀ next ∈ execution.waiting, ∀ clause, Occurs step (next clause)

/-- A call starts as its expression says. -/
def Member.IsStart (member : Member σ) (state : σ) : Prop :=
  state = member.expression.start (member.expression.calls + 1)

section Steps

variable {own step begins} {session after : Session σ} {calls : List String}

theorem readThrough_steps {handle : Handle} {test : Test} {outcome : Except Fault Bool}
    (read : session.readThrough handle test = (outcome, after)) :
    Step ⟨session, calls, .foreign⟩ ⟨after, calls, .foreign⟩ := by
  have stepped : Step ⟨session, calls, .foreign⟩ ⟨(session.readThrough handle test).2, calls, .foreign⟩ :=
    .read handle test
  rwa [read] at stepped

theorem readThrough_reached {handle : Handle} {test : Test} {outcome : Except Fault Bool}
    (sane : Sane ⟨session, calls, .foreign⟩) (read : session.readThrough handle test = (outcome, after)) :
    Leads calls.length ⟨session, calls, .foreign⟩ ⟨after, calls, .foreign⟩ := by
  have led := readThrough_leads handle test sane
  rwa [read] at led

theorem Goes.leads {stretch next : Stretch σ} (goes : Goes own session stretch after next)
    (sane : Sane ⟨session, calls, .foreign⟩) :
    Leads calls.length ⟨session, calls, .foreign⟩ ⟨after, calls, .foreign⟩ := by
  cases goes with
  | read read => exact readThrough_reached sane read
  | remember accessor slot next => exact .single (.aside _ session.environment) (Nat.le_refl _) rfl
  | «recall» found => exact .refl ..
  | change environment next => exact .single (.aside session.slots _) (Nat.le_refl _) rfl

theorem Fails.leads {stretch : Stretch σ} {fault : Fault} (fails : Fails own session stretch after fault)
    (sane : Sane ⟨session, calls, .foreign⟩) :
    Leads calls.length ⟨session, calls, .foreign⟩ ⟨after, calls, .foreign⟩ := by
  cases fails with
  | test read => exact readThrough_reached sane read
  | read read => exact readThrough_reached sane read
  | «recall» | raise | finish => exact .refl ..

/-- An execution takes the steps of a session. -/
theorem Proceeds.steps {before after : Execution σ} (proceeds : Proceeds step begins before after)
    (sane : Sane before.moment) : Steps before.moment after.moment := by
  cases proceeds with
  | go innermost goes => exact Within.steps (goes.leads sane).within
  | test innermost read => exact .single (readThrough_steps read)
  | compile => exact .single (.ask _)
  | settle closed => exact .single (.settle closed)
  | fail innermost fails => exact .tail (Within.steps (fails.leads sane).within) (.raise _)
  | unknown absent => exact .single (.unknown absent)
  | refuse found locked => exact .single (.refuse found locked)
  | enter found unlocked => exact .single (.enter found unlocked)
  | load found current => exact .single (.load found current)
  | unset found wrong => exact .single (.unset found wrong)
  | begin innermost queued => exact .single (.begin innermost queued)
  | finish innermost empty => exact .single (.finish innermost empty)
  | leave => exact .single .leave
  | resume => exact .single .back
  | unwind => exact .tail (.single .back) (.raise _)

theorem Reaches.steps {first last : Execution σ} (reaches : Reaches step begins first last) (sane : Sane first.moment) :
    Steps first.moment last.moment := by
  induction reaches with
  | refl => exact .refl
  | tail _ proceeds ih => exact ih.trans (proceeds.steps (Steps.sane ih sane))

theorem Goes.occurs {stretch next : Stretch σ} (goes : Goes own session stretch after next)
    (occurs : Occurs step stretch) : Occurs step next := by
  cases goes with
  | read read => exact occurs.read _
  | remember accessor slot next => exact occurs.remember
  | «recall» found => exact occurs.recall _
  | change environment next => exact occurs.change

theorem Rooted.of_code {stretch : Stretch σ} {waiting : List (String → Stretch σ)} (occurs : Occurs step stretch)
    (behind : ∀ next ∈ waiting, ∀ clause, Occurs step (next clause)) :
    Rooted step ⟨session, calls, waiting, .code stretch⟩ := by
  refine ⟨?_, behind⟩
  rintro _ ⟨⟩
  exact occurs

theorem Proceeds.rooted {before after : Execution σ} (proceeds : Proceeds step begins before after)
    (rooted : Rooted step before) : Rooted step after := by
  cases proceeds with
  | go innermost goes => exact .of_code (goes.occurs (rooted.code _ rfl)) rooted.waiting
  | test | begin => exact .of_code (.start _) rooted.waiting
  | compile =>
      exact ⟨nofun, List.forall_mem_cons.mpr ⟨fun clause => (rooted.code _ rfl).compile clause, rooted.waiting⟩⟩
  | resume =>
      have waiting := List.forall_mem_cons.mp rooted.waiting
      exact .of_code (waiting.1 _) waiting.2
  | unwind => exact ⟨nofun, (List.forall_mem_cons.mp rooted.waiting).2⟩
  | settle | fail | unknown | refuse | enter | load | unset | finish | leave => exact ⟨nofun, rooted.waiting⟩

theorem Reaches.rooted {first last : Execution σ} (reaches : Reaches step begins first last)
    (rooted : Rooted step first) : Rooted step last := by
  induction reaches with
  | refl => exact rooted
  | tail _ proceeds ih => exact proceeds.rooted ih

theorem Reaches.sane {first last : Execution σ} (reaches : Reaches step begins first last) (sane : Sane first.moment) :
    Sane last.moment :=
  (reaches.steps sane).sane sane

end Steps

end Session

end Extension
