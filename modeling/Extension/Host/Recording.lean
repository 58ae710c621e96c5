import Extension.Entries
import Extension.Host

namespace Extension.Host

/-! A host that records what it is asked, and runs the handlers that were registered with it. -/

inductive Handler where
  | echo
  | answer (value : Given Value)
  | raise (cause : Decision.Raised)

def Handler.run (handler : Handler) (arguments : List Value) : Given Value :=
  match handler with
  | .echo => .ok (.list arguments)
  | .answer value => value
  | .raise cause => .error (.raised cause)

inductive Request where
  | execute (command : String) (arguments : List Value)
  | register (command : String)
  | showError (message : String)

structure Recording where
  handlers : Entries Handler := []
  requests : List Request := []

def Recording.record (recording : Recording) (request : Request) : Recording :=
  { recording with requests := recording.requests ++ [request] }

/-- A command without a handler, `setContext` among them, has the result null.  Registering a command again
puts the new handler in place of the old one. -/
def recording : Host Handler Recording where
  execute command arguments state :=
    let result := match state.handlers.lookup command with
      | some handler => handler.run arguments
      | none => .ok .null
    (result, state.record (.execute command arguments))
  register command handler state :=
    (.ok (.text s!"disposable:{command}"),
      { state with handlers := state.handlers.put command handler }.record (.register command))
  showError message state := (.ok (), state.record (.showError message))

end Extension.Host
