import Extension.Rule.Expression

namespace Extension

open Decision

/-! Expressions that compile one another.

While one expression is explored its rule may compile others, and may use accessors that were remembered
earlier.  A session keeps the expressions, the explorations that are under way, innermost first, and the
remembered accessors.  An expression is locked while it is explored, and no rule catches a fault.
-/

/-- What a rule in a session does until its next own test, its end or a fault. -/
inductive Stretch (σ : Type) where
  | read (test : Test) (next : Bool → σ)
  | finish (value : Value)
  | raise (fault : Fault)
  | readRemembered (handle : Handle) (test : Test) (next : Bool → Stretch σ)
  | compile (name : String) (next : String → Stretch σ)
  | remember (accessor : Accessor) (slot : String) (next : Stretch σ)
  | recall (slot : String) (next : Handle → Stretch σ)
  /-- Gives variables of the environment other values, or takes them away. -/
  | change (environment : Environment → Environment) (next : Stretch σ)

def Script.stretch : Script → Stretch Script
  | .finish value => .finish value
  | .raise fault => .raise fault
  | .read .own test next => .read test next
  | .read (.remembered handle) test next => .readRemembered handle test fun answer => (next answer).stretch
  | .compile name next => .compile name fun clause => (next clause).stretch
  | .remember accessor slot next => .remember accessor slot next.stretch
  | .recall slot next => .recall slot fun handle => (next handle).stretch

structure Member (σ : Type) where
  expression : Expression σ
  locked : Bool := false

/-- An exploration under way, with the pass that is being run. -/
structure Frame where
  serial : Nat
  name : String
  capacity : Nat
  exploration : Exploration := {}
  pass : Option Pass := none

namespace Frame

def handle (frame : Frame) : Handle :=
  ⟨frame.serial, frame.exploration.records.length⟩

def opened (frame : Frame) (assignment : Nat) : Frame :=
  { frame with pass := some { assignment, capacity := frame.capacity } }

/-- Closes the pass with the value that the rule returned. -/
def close (frame : Frame) (value : Value) : Except Fault Frame :=
  match frame.pass, frame.exploration.queue with
  | some pass, assignment :: queue =>
      match pass.resolve frame.exploration.tree value.truthy with
      | .error fault => .error fault
      | .ok tree =>
          let exploration := frame.exploration.record queue assignment tree pass value.truthy
          .ok { frame with exploration, pass := none }
  | _, _ => .ok frame

end Frame

structure Session (σ : Type) where
  environment : Environment
  members : Entries (Member σ) := []
  frames : List Frame := []
  slots : List (String × Handle) := []
  begun : Nat := 0

abbrev Reached (σ α : Type) := Except Fault α × Session σ

namespace Session

variable {σ : Type}

def member? (session : Session σ) (name : String) : Option (Member σ) :=
  session.members.lookup name

def setMember (session : Session σ) (name : String) (member : Member σ) : Session σ :=
  { session with members := session.members.put name member }

def updateMember (session : Session σ) (name : String) (change : Member σ → Member σ) : Session σ :=
  match session.member? name with
  | some member => session.setMember name (change member)
  | none => session

def lock (session : Session σ) (name : String) : Session σ :=
  session.updateMember name fun member => { member with locked := true }

def unlock (session : Session σ) (name : String) : Session σ :=
  session.updateMember name fun member => { member with locked := false }

def countPasses (session : Session σ) (name : String) (passes : Nat) : Session σ :=
  session.updateMember name fun member => { member with expression := { member.expression with passes } }

/-- Begins the exploration of an expression, inside those that are under way. -/
def push (session : Session σ) (name : String) (capacity : Nat) : Session σ :=
  { session with
    frames := { serial := session.begun, name, capacity } :: session.frames
    begun := session.begun + 1 }

def pop (session : Session σ) : Session σ :=
  { session with frames := session.frames.tail }

/-- Opens a pass of the innermost exploration, which calls its rule once more. -/
def openPass (session : Session σ) (assignment : Nat) : Session σ :=
  match session.frames with
  | [] => session
  | frame :: outer =>
      { session with frames := frame.opened assignment :: outer }.updateMember frame.name fun member =>
        { member with expression := { member.expression with calls := member.expression.calls + 1 } }

/-- Closes the pass of the innermost exploration with the value that the rule returned. -/
def closePass (session : Session σ) (value : Value) : Except Fault (Session σ) :=
  match session.frames with
  | [] => .ok session
  | frame :: outer =>
      match frame.close value with
      | .error fault => .error fault
      | .ok frame => .ok { session with frames := frame :: outer }

/-- The pass that an accessor belongs to, if it is still being run. -/
def activePass? (session : Session σ) (handle : Handle) : Option (Frame × Pass) :=
  (session.frames.find? fun frame => frame.pass.isSome && frame.handle == handle).bind fun frame =>
    frame.pass.map (frame, ·)

def setFrame (session : Session σ) (frame : Frame) : Session σ :=
  { session with frames := session.frames.map fun old => if old.serial == frame.serial then frame else old }

def readThrough (session : Session σ) (handle : Handle) (test : Test) : Reached σ Bool :=
  match session.activePass? handle with
  | none => (.error (.passOver test.text), session)
  | some (frame, pass) =>
      match pass.read frame.exploration.tree test with
      | .error fault => (.error fault, session)
      | .ok answered =>
          let exploration := { frame.exploration with tree := answered.tree }
          (.ok answered.answer, session.setFrame { frame with exploration, pass := some answered.pass })

inductive Ending (σ : Type) where
  | read (test : Test) (next : Bool → σ)
  | finish (value : Value)

/-- Runs one stretch.  `nested` compiles an expression of the session. -/
def runStretch (nested : String → Session σ → Reached σ String) (own : Option Handle) :
    Stretch σ → Session σ → Reached σ (Ending σ)
  | .read test next, session => (.ok (.read test next), session)
  | .finish value, session => (.ok (.finish value), session)
  | .raise fault, session => (.error fault, session)
  | .readRemembered handle test next, session =>
      match session.readThrough handle test with
      | (.error fault, session) => (.error fault, session)
      | (.ok answer, session) => runStretch nested own (next answer) session
  | .compile name next, session =>
      match nested name session with
      | (.error fault, session) => (.error fault, session)
      | (.ok clause, session) => runStretch nested own (next clause) session
  | .remember accessor slot next, session =>
      let handle? := match accessor with
        | .own => own
        | .remembered handle => some handle
      let slots := match handle? with
        | some handle => (slot, handle) :: session.slots
        | none => session.slots
      runStretch nested own next { session with slots }
  | .recall slot next, session =>
      match session.slots.lookup slot with
      | some handle => runStretch nested own (next handle) session
      | none => (.error (Rule.unknown slot), session)
  | .change environment next, session =>
      runStretch nested own next { session with environment := environment session.environment }

variable (step : σ → Stretch σ)

/-- Runs a rule to its end through an accessor.  No more than `budget` of its own tests succeed. -/
def runCall (nested : String → Session σ → Reached σ String) (own : Handle) (budget : Nat) (state : σ)
    (session : Session σ) : Reached σ Value :=
  match runStretch nested (some own) (step state) session with
  | (.error fault, session) => (.error fault, session)
  | (.ok (.finish value), session) => (.ok value, session)
  | (.ok (.read test next), session) =>
      match session.readThrough own test with
      | (.error fault, session) => (.error fault, session)
      | (.ok answer, session) =>
          match budget with
          | 0 => (.error (.passOver test.text), session)
          | budget + 1 => runCall nested own budget (next answer) session

/-- The state of an exploration of a session: the session, and the fault that ended it. -/
structure Driving (σ : Type) where
  session : Session σ
  fault : Option Fault := none

def Driving.isBusy (driving : Driving σ) : Bool :=
  driving.fault.isNone &&
    match driving.session.frames with
    | [] => false
    | frame :: _ => !frame.exploration.queue.isEmpty

def runNextPass (nested : String → Session σ → Reached σ String) (driving : Driving σ) : Driving σ :=
  match driving.session.frames with
  | [] => driving
  | frame :: _ =>
      match frame.exploration.queue, driving.session.member? frame.name with
      | assignment :: _, some member =>
          let state := member.expression.start (member.expression.calls + 1)
          match runCall step nested frame.handle frame.capacity state (driving.session.openPass assignment) with
          | (.error fault, session) => { session, fault := some fault }
          | (.ok value, session) =>
              match session.closePass value with
              | .error fault => { session, fault := some fault }
              | .ok session => { session }
      | _, _ => driving

/-- Explores an expression that is locked.  Only an exploration that succeeds counts its passes. -/
def exploreLocked (nested : String → Session σ → Reached σ String) (name : String) (expression : Expression σ)
    (session : Session σ) : Reached σ Tree :=
  match expression.currentSettings session.environment with
  | .error fault => (.error fault, session)
  | .ok settings =>
      let ended := settle Driving.isBusy (runNextPass step nested) (settings.maxAtoms + 1) 0
        { session := session.push name settings.maxAtoms }
      match ended.fault, ended.session.frames with
      | none, frame :: _ =>
          (.ok frame.exploration.tree, (ended.session.countPasses name frame.exploration.records.length).pop)
      | none, [] => (.error (Rule.unknown name), ended.session)
      | some fault, _ => (.error fault, ended.session.pop)

/-- Explores an expression of the session, which is locked meanwhile. -/
def exploreWith (nested : String → Session σ → Reached σ String) (name : String) (session : Session σ) :
    Reached σ Tree :=
  match session.member? name with
  | none => (.error (Rule.unknown name), session)
  | some member =>
      if member.locked then (.error (.alreadyCompiling member.expression.name), session)
      else
        let (outcome, session) := exploreLocked step nested name member.expression (session.lock name)
        (outcome, session.unlock name)

/-- Explores an expression.  No more than `depth` expressions are unlocked, so that compiles are nested no
deeper. -/
def exploreNested : Nat → String → Session σ → Reached σ Tree
  | 0, name, session =>
      match session.member? name with
      | none => (.error (Rule.unknown name), session)
      | some member => (.error (.alreadyCompiling member.expression.name), session)
  | depth + 1, name, session =>
      exploreWith step (fun name session =>
        let (tree, session) := exploreNested depth name session
        (tree.map Tree.clause, session)) name session

def explore (name : String) (session : Session σ) : Reached σ Tree :=
  exploreNested step session.members.length name session

def compile (name : String) (session : Session σ) : Reached σ String :=
  let (tree, session) := session.explore step name
  (tree.map Tree.clause, session)

/-- Explores an expression and reports on its tree.  There is no report if the capacity is too large for its
mark. -/
def analyze (name : String) (session : Session σ) : Reached σ (Option Report) :=
  match session.explore step name with
  | (.error fault, session) => (.error fault, session)
  | (.ok tree, session) =>
      match session.member? name with
      | none => (.error (Rule.unknown name), session)
      | some member =>
          ((member.expression.currentSettings session.environment).map fun settings =>
            tree.report? settings.maxAtoms member.expression.passes, session)

/-- Runs a rule outside every compile, where it has no accessor of its own. -/
def run (state : σ) (session : Session σ) : Reached σ Value :=
  match runStretch (fun name session => session.compile step name) none (step state) session with
  | (.error fault, session) => (.error fault, session)
  | (.ok (.finish value), session) => (.ok value, session)
  | (.ok (.read _ _), session) => (.error (.raised ⟨.type, "'NoneType' object is not subscriptable"⟩), session)

end Session

end Extension
