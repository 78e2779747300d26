import Realm.Playbook

/-!
# Launching a game

What the command line does, apart from reading files: it names the configuration file, makes the
configuration of what is found there, and plays a few turns by the playbook.
-/

set_option autoImplicit false

namespace Realm.Launch

/-- The configuration file: the first argument, or the standard one. -/
def configPath (arguments : List String) : String := arguments.head?.getD "kingdom-config.yaml"

/-- The variable of the environment that may name a content file. -/
def contentVariable : String := "KINGDOM_CONTENT"

/-- How many turns are played. -/
def turns : Nat := 3

variable {α : Type} [Amount α]

/-- The configuration that a file holds, or the standard one if there is no file. -/
def config (file : Option String) (contentPath : Option String) :
    Except (SessionError α) (Config α) :=
  match file with
  | some text => (Config.ofText text contentPath).mapError .config
  | none => .ok (({} : Config α).withContentPath contentPath)

/-- Plays a game with the content of a file and shows how it ends. -/
def play (config : Config α) (content : String) : Except (SessionError α) (SessionSnapshot α) := do
  let content ← (Content.ofText content).mapError .content
  let session ← Session.start config content Operation.all
  match (Playbook.play turns).run (.ofSession session) with
  | (.ok _, broadcast) => return broadcast.latest
  | (.error error, _) => throw error

end Realm.Launch
