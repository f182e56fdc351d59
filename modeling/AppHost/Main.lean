import AppHost.Startup

/-!
# The command line

Reads the configuration that is named, or `config.toml`, and says on which address each application
would be served; a configuration that cannot work is reported on the error stream, and the exit code
tells the two apart.
-/

namespace AppHost

/-- An error's number, which may be given with its sign turned. -/
def systemNumber (number : UInt32) : Int :=
  if number.toNat < 2147483648 then number.toNat else 4294967296 - (number.toNat : Int)

def IoError.ofSystem (e : IO.Error) : IoError :=
  match e with
  | .noFileOrDirectory _ number _ | .permissionDenied _ number _ | .inappropriateType _ number _
  | .alreadyExists _ number _ | .noSuchThing _ number _ | .invalidArgument _ number _
  | .resourceExhausted _ number _ => .os (systemNumber number)
  | .otherError number _ | .hardwareFault number _ | .resourceBusy number _
  | .protocolError number _ | .timeExpired number _ => .os (systemNumber number)
  | e => .other (toString e)

def Config.served (config : Config) : Except StartError (List String) :=
  let nobody : Surroundings :=
    { files := {}, caller := { uid := 0, gid := 0, privileged := false } }
  (nobody.listenAll config.server config.apps).2.map fun addresses =>
    addresses.map ListenAddress.describe

def look (args : List String) : IO UInt32 := do
  let path := args.headD defaultConfigPath.text
  let content ← try Except.ok <$> IO.FS.readBinFile path catch e =>
      pure (.error (IoError.ofSystem e))
  match (Config.load content).mapError StartError.config >>= Config.served with
  | .ok lines =>
    for line in lines do IO.println line
    return 0
  | .error e =>
    IO.eprintln ("Error: " ++ e.message)
    return 1

end AppHost

def main (args : List String) : IO UInt32 := AppHost.look args
