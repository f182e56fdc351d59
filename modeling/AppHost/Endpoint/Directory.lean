import AppHost.Endpoint
import AppHost.Files.Change

/-!
# Socket directories

The directory that a host's sockets stand in. Anybody may add a socket to it, which workers have to,
but only its owner may see what is there: the sockets' names are as good as secret. Nothing is ever
removed from it; a worker that is given a name takes over whatever socket it finds there.
-/

namespace AppHost.SocketDirectory

def mode : Nat := 0o733

/-- Makes the directory if there is none yet, with its parents. The error comes with the files as
the failed attempt left them. -/
def prepare (files : Files) (c : Caller) (dir : Path) : Except (Files × IoError) Files :=
  if files.isDirectory c dir then .ok files
  else match files.makeAllDirs c dir with
    | .error e => .error (files, e)
    | .ok files =>
      match files.find c dir with
      | .error e => .error (files, e)
      | .ok (place, _) =>
        match files.setMode c place mode with
        | .error e => .error (files, e)
        | .ok files => .ok files

def endpoint (dir : Path) (name secret : List UInt8) : Endpoint where
  address := .socket dir (Text.hexBytes name)
  secret := Endpoint.secretOfBytes secret

def maxSocketPathBytes : Nat := 107

def isListening (files : Files) (c : Caller) (socket : Path) : Bool :=
  socket.text.utf8ByteSize ≤ maxSocketPathBytes &&
    match files.find c socket with
    | .ok (_, node) => node.content = .socket && node.permits c .write
    | .error _ => false

def bind (files : Files) (c : Caller) (socket : Path) : Except IoError Files := do
  if maxSocketPathBytes < socket.text.utf8ByteSize then throw .invalidArgument
  let (dir, name?) ← files.target c socket
  let some name := name? | throw .addressInUse
  if (files.get? (dir ++ [name])).isSome then throw .addressInUse
  if !files.canChange c dir then throw .permissionDenied
  return files.put (dir ++ [name])
    { content := .socket, mode := Files.without 0o777 c.umask, owner := c.uid, group := c.gid }

end AppHost.SocketDirectory
