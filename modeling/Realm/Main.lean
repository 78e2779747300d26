import Realm.Amount.Binary64
import Realm.Json.Printer
import Realm.Launch

/-!
# The command line

Plays a game from a configuration file and a content file and prints how it ends. Whatever goes
wrong is told on the standard error, and the exit code is one.
-/

set_option autoImplicit false

open Realm

/-- The text of a file, or nothing if there is none. -/
def readIfPresent (path : String) : IO (Option String) := do
  try
    return some (← IO.FS.readFile path)
  catch
    | .noFileOrDirectory .. => return none
    | error => throw error

/-- Ends the program with an error of a game. -/
def orThrow {β : Type} (outcome : Except (SessionError Binary64) β) : IO β :=
  IO.ofExcept (outcome.mapError SessionError.message)

def main (arguments : List String) : IO UInt32 := do
  try
    let file ← readIfPresent (Launch.configPath arguments)
    let config ← orThrow (Launch.config file (← IO.getEnv Launch.contentVariable))
    let snapshot ← orThrow (Launch.play config (← IO.FS.readFile config.contentPath))
    IO.println snapshot.toJson.print
    return 0
  catch error =>
    IO.eprintln error
    return 1
