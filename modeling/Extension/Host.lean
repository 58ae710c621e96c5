import Extension.Rule.Basic

namespace Extension

/-! The editor that an extension runs in. -/

/-- What the library asks of the editor.  Command handlers are of type `η` and the editor's own state is of
type `σ`; every request may fail, and may change the state even then. -/
structure Host (η σ : Type) where
  execute (command : String) (arguments : List Value) : σ → Given Value × σ
  register (command : String) (handler : η) : σ → Given Value × σ
  showError (message : String) : σ → Given Unit × σ

end Extension
