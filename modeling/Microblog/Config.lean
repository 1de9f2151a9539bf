import Microblog.ContentFilter
import Microblog.Error
import Microblog.SocketAddress
import Microblog.Text.Quoted

/-!
# Configuration

What a server is told when it is started.

## Main definitions

* `Config` — the settings and their defaults.
* `Config.socketAddress` — the address that the server listens on.
-/

namespace Microblog

/-- The settings of a server. -/
structure Config where
  /-- The address to listen on. -/
  listenAddress : String := "127.0.0.1:7777"
  /-- The most connections open at one time. -/
  maxConnections : Nat := 1024
  /-- After how many milliseconds a silent connection is given up; zero for never. -/
  readTimeout : Nat := 0
  /-- After how many milliseconds a stuck write is given up; zero for never. -/
  writeTimeout : Nat := 0
  /-- The words redacted from private messages. -/
  filter : ContentFilter := {}
  deriving DecidableEq, Repr, Inhabited

/-- The address that the server listens on. -/
def Config.socketAddress (c : Config) : Except Error SocketAddress :=
  match SocketAddress.parse? c.listenAddress with
  | some address => .ok address
  | none => .error (.config (.invalidListenAddress (Text.quoted c.listenAddress)))

end Microblog
