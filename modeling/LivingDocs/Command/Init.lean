import LivingDocs.Command.Session

/-!
# Setting up a configuration

Writes the default configuration into the working directory, unless there is one.

## Main definitions

* `LivingDocs.Command.init` — the command.
-/

set_option autoImplicit false

namespace LivingDocs.Command

/-- The title of a configuration that is already there. -/
def configuredTitle : String := "Cannot initialize configuration!"

/-- **Sets up a configuration.** -/
def init : Action Result := do
  let path : Path := ⟨Config.fileName⟩
  if (← Action.files).contains path then
    return {
      summary := .init false
      title := configuredTitle
      problems := [s!"{Config.fileName} already exists"] }
  else
    Action.writeText Failure.noConfiguration path (Config.defaultText ++ "\n")
    return { summary := .init true }

end LivingDocs.Command
