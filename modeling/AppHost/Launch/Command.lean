import AppHost.AppSpec

/-!
# The command that hosts an application

An application runs under an adapter of its mode. When the worker is to run as another user than
the host does, the adapter's command line is handed to `su`, which runs it in a shell of that user.
Nothing secret appears on a command line or in the environment: any user can read those.

A word of a shell's command line is quoted so that the shell reads it back unchanged. One that holds
no character the shell gives a meaning to is left alone; any other stands between single quotes, and
a single quote of its own is written outside of them, escaped.
-/

namespace AppHost.Launch

/-- The characters that the shell does not take for themselves, wherever they stand. -/
def shellSpecials : List Char :=
  ['|', '&', ';', '<', '>', '(', ')', '$', '`', '\\', '"', '\'', ' ', '\t', '\n',
   '*', '?', '[', '#', '~', '=', '%']

def quoteChar (c : Char) : List Char :=
  if c = '\'' then ['\'', '\\', '\'', '\''] else [c]

def quoteChars (cs : List Char) : List Char :=
  if !cs.isEmpty && cs.all (fun c => !shellSpecials.contains c) then cs
  else '\'' :: cs.flatMap quoteChar ++ ['\'']

def quoteWord (word : String) : String := String.ofList (quoteChars word.toList)

def commandLine (words : List String) : String := String.intercalate " " (words.map quoteWord)

structure Command where
  program : String
  args : List String
  /-- Variables set for the program besides those that every worker gets. -/
  env : List (String × String)
  deriving DecidableEq, Repr, Inhabited

namespace Command

def adapter (config : LauncherConfig) (app : AppSpec) : Command :=
  match app.settings.mode with
  | .shiny | .rmd => {
      program := config.rProgram
      args := ["--no-save", "--slave", "-f", config.rAdapterScript]
      env := [] }
  | .shinyPython => {
      program := app.settings.appDefaults.python.getD config.pythonProgram
      args := [config.pythonAdapterScript]
      env := [("PYTHONUNBUFFERED", "1")] }

def script (dir : Path) (c : Command) : String :=
  "cd " ++ quoteWord dir.text ++ " && " ++ commandLine (c.program :: c.args)

def asUser (user : String) (dir : Path) (c : Command) : Command where
  program := "su"
  args := ["-s", "/bin/bash", "--login", "-p", "--", user, "-c", c.script dir]
  env := c.env

def forWorker (config : LauncherConfig) (app : AppSpec) (user : String) (switchUser : Bool) :
    Command :=
  let c := adapter config app
  if switchUser then c.asUser user app.appDir else c

end Command

end AppHost.Launch
