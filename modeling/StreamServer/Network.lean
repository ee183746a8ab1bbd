import StreamServer.Address
import StreamServer.Fault

/-!
# The network around a program

What the system answers when a program wants to listen somewhere, and when a client wants to reach a
listener.
-/

namespace StreamServer

/-- A network: the address that a listener gets for the one it asks for, and whether a client that
starts from an address reaches a listener. -/
structure Network where
  bind : SocketAddress → Except Fault SocketAddress
  reach : SocketAddress → Except Fault Unit

namespace Network

/-- A network in which every address can be had and every client comes through. -/
def connected : Network :=
  ⟨.ok, fun _ => .ok ()⟩

/-- A network in which every address can be had, but no client finds a way. -/
def isolated : Network :=
  ⟨.ok, fun _ => .error (.system 101)⟩

end Network

end StreamServer
