import Extension.Decision.Exploration

namespace Extension

open Decision

/-! Rules: the small language in which visibility conditions are written.

A rule reads context keys through the accessor that it is given.  `Rule.script` spells out what running
it does, step by step; nothing else about a rule can be observed.
-/

/-- Something that is made where it is used, if it can be made. -/
abbrev Given (α : Type) := Except Fault α

inductive Rule where
  /-- A test of a key.  The key is made before what it is compared with. -/
  | test (key : Given Value) (probe : Given Probe)
  | const (value : Given Value)
  | negation (rule : Rule)
  /-- The values from the left up to the first that does not count as true. -/
  | all (rules : List Rule)
  /-- The values from the left up to the first that counts as true. -/
  | any (rules : List Rule)
  | choose (condition onTrue onFalse : Rule)
  /-- All rules in order, with the value of the last. -/
  | inOrder (rules : List Rule)
  | differ (left right : Rule)
  /-- Runs all rules.  Do at least so many of them hold? -/
  | atLeast (count : Int) (rules : List Rule)
  /-- The first rule in the first calls, the second from then on. -/
  | upTo (calls : Int) (first later : Rule)
  /-- The first rule in every odd call, the second in every even one. -/
  | alternate (odd even : Rule)
  | raise (cause : Raised)
  /-- Compiles another expression, and returns its clause. -/
  | compile (name : String)
  | stash (slot : String)
  | stashed (slot : String) (rule : Rule)

instance : Inhabited Rule := ⟨.inOrder []⟩

/-- The pass of an exploration that an accessor belongs to. -/
structure Handle where
  exploration : Nat
  pass : Nat
deriving DecidableEq, Repr, Inhabited

inductive Accessor where
  /-- The one that the rule was called with. -/
  | own
  | remembered (handle : Handle)
deriving DecidableEq, Repr, Inhabited

/-- What a run does, as a tree of its possible answers. -/
inductive Script where
  | finish (value : Value)
  | raise (fault : Fault)
  | read (accessor : Accessor) (test : Test) (next : Bool → Script)
  | compile (name : String) (next : String → Script)
  | remember (accessor : Accessor) (slot : String) (next : Script)
  | recall (slot : String) (next : Handle → Script)

namespace Rule

def unknown (name : String) : Fault :=
  .raised ⟨.key, name⟩

def makeTest (key : Given Value) (probe : Given Probe) : Given Test :=
  match key with
  | .error fault => .error fault
  | .ok key =>
      match keyName key with
      | .error fault => .error fault
      | .ok name =>
          match probe with
          | .error fault => .error fault
          | .ok probe => Test.ofProbe name probe

variable (call : Nat)

mutual

/-- Runs a rule in the given call of its function, and goes on with its value. -/
def script (accessor : Accessor) : Rule → (Value → Script) → Script
  | .test key probe, next =>
      match makeTest key probe with
      | .error fault => .raise fault
      | .ok made => .read accessor made fun answer => next (.bool answer)
  | .const value, next =>
      match value with
      | .error fault => .raise fault
      | .ok value => next value
  | .negation rule, next => rule.script accessor fun value => next (.bool !value.truthy)
  | .all rules, next => scriptAll accessor rules (.bool true) next
  | .any rules, next => scriptAny accessor rules (.bool false) next
  | .choose condition onTrue onFalse, next =>
      condition.script accessor fun value =>
        if value.truthy then onTrue.script accessor next else onFalse.script accessor next
  | .inOrder rules, next => scriptInOrder accessor rules .null next
  | .differ left right, next =>
      left.script accessor fun first =>
        right.script accessor fun second => next (.bool (first.truthy != second.truthy))
  | .atLeast count rules, next => scriptCount accessor rules 0 fun held => next (.bool (count ≤ held))
  | .upTo calls first later, next =>
      if (call : Int) ≤ calls then first.script accessor next else later.script accessor next
  | .alternate odd even, next =>
      if call % 2 = 1 then odd.script accessor next else even.script accessor next
  | .raise cause, _ => .raise (.raised cause)
  | .compile name, next => .compile name fun clause => next (.text clause)
  | .stash slot, next => .remember accessor slot (next .null)
  | .stashed slot rule, next => .recall slot fun handle => rule.script (.remembered handle) next

def scriptAll (accessor : Accessor) : List Rule → Value → (Value → Script) → Script
  | [], last, next => next last
  | rule :: rules, _, next =>
      rule.script accessor fun value =>
        if value.truthy then scriptAll accessor rules value next else next value

def scriptAny (accessor : Accessor) : List Rule → Value → (Value → Script) → Script
  | [], last, next => next last
  | rule :: rules, _, next =>
      rule.script accessor fun value =>
        if value.truthy then next value else scriptAny accessor rules value next

def scriptInOrder (accessor : Accessor) : List Rule → Value → (Value → Script) → Script
  | [], last, next => next last
  | rule :: rules, _, next => rule.script accessor fun value => scriptInOrder accessor rules value next

def scriptCount (accessor : Accessor) : List Rule → Int → (Int → Script) → Script
  | [], held, next => next held
  | rule :: rules, held, next =>
      rule.script accessor fun value =>
        scriptCount accessor rules (if value.truthy then held + 1 else held) next

end

def start (rule : Rule) (call : Nat) : Script :=
  rule.script call .own .finish

end Rule

/-- What a script does next when its rule is explored by itself.  There is nothing else to compile then, and
no accessor but its own. -/
def Script.move : Script → Move Script
  | .finish value => .finish value
  | .raise fault => .raise fault
  | .read _ test next => .read test next
  | .compile name _ => .raise (Rule.unknown name)
  | .remember _ _ next => next.move
  | .recall slot _ => .raise (Rule.unknown slot)

end Extension
