import Microblog.Client

/-!
# The command line

A client of the command line with a server of its own.  Each line of standard input
is a command; the replies are shown as they come.  The program ends after an
acknowledged LOGOUT, or at the end of the input.

The first argument, if there is one, is the day that ages are taken on, written like
a date of birth.
-/

namespace Microblog

/-- The day that ages are taken on if none is given. -/
def defaultToday : String := "01-01-2000"

/-- The day that is written like a date of birth. -/
def Date.ofText (s : String) : Date :=
  let d := BirthDate.ofField (Text.Utf8.encode s)
  ⟨d.year.toNat, d.month.toNat, d.day.toNat⟩

/-- Shows the replies that have come.  The result is an exit code if one of them is
the last. -/
partial def showReplies (client : Client) (server : Server) :
    IO (Option UInt32 × Client × Server) := do
  match client.next server with
  | (.ok (some reply), client, server) =>
    IO.println reply.line
    if Client.isFarewell reply then return (some 0, client, server)
    showReplies client server
  | (.ok none, client, server) => return (none, client, server)
  | (.error e, client, server) =>
    IO.eprintln ("Connection error: " ++ e.message)
    return (some 1, client, server)

/-- Carries out the commands of standard input. -/
partial def serveInput (input : IO.FS.Stream) (client : Client) (server : Server) :
    IO UInt32 := do
  let line ← input.getLine
  if line.isEmpty then
    match ← showReplies client (client.close server) with
    | (some code, _, _) => return code
    | (none, _, _) =>
      IO.println "Disconnected by server"
      return 0
  let mut current := server
  for typed in Client.typedLines line do
    match Command.ofLine typed with
    | .ok command => current := client.send current command.encode
    | .error why => IO.eprintln (Error.protocol why).message
  match ← showReplies client current with
  | (some code, _, _) => return code
  | (none, client, server) => serveInput input client server

end Microblog

/-- Runs the client of the command line. -/
def main (args : List String) : IO UInt32 := do
  let today := Microblog.Date.ofText (args.headD Microblog.defaultToday)
  let (client, server) := Microblog.Client.connect (.start {} { today })
  IO.println ("Connected to " ++ Microblog.Client.defaultAddress)
  Microblog.serveInput (← IO.getStdin) client server
