import Extension.Rule.Basic
import Extension.Decision.Report

namespace Extension

open Decision

/-! When-expressions: rules that wait to be compiled. -/

/-- A rule as a function: how it starts in each of its calls, and how often it has been called. -/
structure Expression (σ : Type) where
  name : String
  start : Nat → σ
  settings : Option Settings := none
  calls : Nat := 0
  passes : Nat := 0

structure Explored (σ : Type) where
  expression : Expression σ
  records : List PassRecord
  outcome : Except Fault Tree

namespace Expression

def ofRule (name : String) (rule : Rule) (settings : Option Settings) : Expression Script :=
  { name, start := rule.start, settings }

/-- The settings of the expression, or those of the environment. -/
def currentSettings {σ : Type} (expression : Expression σ) (environment : Environment) : Except Fault Settings :=
  match expression.settings with
  | some settings => .ok settings
  | none => (Settings.load environment).mapError .settings

variable {σ : Type} (step : σ → Move σ) (environment : Environment)

/-- Runs the rule until its tree is resolved.  Only a run that succeeds counts its passes. -/
def explore (expression : Expression σ) : Explored σ :=
  match expression.currentSettings environment with
  | .error fault => { expression, records := [], outcome := .error fault }
  | .ok settings =>
      let ended := Decision.explore step expression.start settings.maxAtoms expression.calls
      let called := { expression with calls := expression.calls + ended.begun }
      match ended.outcome with
      | .error fault => { expression := called, records := ended.records, outcome := .error fault }
      | .ok tree =>
          { expression := { called with passes := ended.records.length }
            records := ended.records
            outcome := .ok tree }

def compile (expression : Expression σ) : Except Fault String :=
  match (expression.explore step environment).outcome with
  | .error fault => .error fault
  | .ok tree => .ok tree.clause

def display {σ : Type} (expression : Expression σ) : String :=
  s!"WhenExpression({Text.quoted expression.name})"

end Expression

end Extension
