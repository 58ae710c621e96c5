import Extension.Registry.Step

namespace Extension.Registry

/-! The contributions of a small file explorer, as an example. -/

namespace Explorer

/-- The name under which the log shows the example's rules. -/
def ruleName : String :=
  "build_example_contributions.<locals>.<lambda>"

def key (name : String) (probe : Decision.Probe) : Rule :=
  .test (.ok (.contextKey name)) (.ok probe)

def textKey (name : String) (probe : Decision.Probe) : Rule :=
  .test (.ok (.text name)) (.ok probe)

def inView : Rule :=
  key "view" (.equals (.text "explorer"))

def idle : Rule :=
  .all [inView, .negation (key "explorer.busy" .truthy)]

/-- The resource is a Markdown document, by its name or by its language. -/
def markdown : Rule :=
  .any [textKey "resourceFilename" (.matches (.source "\\.(md|markdown)$")),
    textKey "resourceLangId" (.equals (.text "markdown"))]

def shownWhen (rule : Rule) : Option ConditionSource :=
  some (.rule ruleName rule none)

def steps : List Step :=
  [.command "refresh"
      { id := "explorer.refresh", title := some "Refresh", category := some "Explorer"
        icon := some (.themes { light := some "media/refresh-light.svg", dark := some "media/refresh-dark.svg" }) }
      true,
    .command "collapse"
      { id := "explorer.collapseAll", title := some "Collapse All", category := some "Explorer"
        icon := some (.path "$(collapse-all)") }
      true,
    .command "preview" { id := "explorer.preview", title := some "Open Preview" } false,
    .external "open" "vscode.open",
    .contextKey "view" (.ok (.text "view")),
    .contextKey "busy" (.ok (.text "explorer.busy")),
    .menu "title" "view/title",
    .group "title" "navigation"
      [{ command := "refresh", alt := some "collapse", condition := shownWhen idle },
        { command := "collapse", condition := shownWhen inView }],
    .menu "editor" "editor/title",
    .add "editor" { command := "preview", condition := shownWhen markdown }]

end Explorer

end Extension.Registry
