/-
# Active connections of a TCP server

The bookkeeping of `ITcpServer` (`imp/network/itcp-server.cpp`): `connections_map` holds the
tasks of the connections that are tried, by descriptor, and `token_directory` the descriptor
of every token.  `activeConnect` looks for a token that is not in use, in at most 1000 tries.

`getaddrinfo`, `socket` and `std::random_device` are the environment.  A task has an identity
of its own, since descriptors and tokens are used again.
-/
import SignalEventLoop.Network.CacheBuffer
import SignalEventLoop.Lib.OrdMap

namespace SignalEventLoop.Network

structure ConnectionTask where
  id : ℕ
  token : ℕ
  fd : ℕ
deriving DecidableEq

/-- The variable part of an `ITcpServer`. -/
structure ITcpServer where
  nextToken : ℕ
  connectionsMap : Std.ExtTreeMap ℕ ConnectionTask
  tokenDirectory : Std.ExtTreeMap ℕ ℕ
  /-- The number of tasks so far. -/
  nextId : ℕ

/-- What the environment answers to an `activeConnect`. -/
structure ConnectRequest where
  /-- `getaddrinfo` has found addresses. -/
  resolved : Bool
  /-- The values of `std::random_device`. -/
  random : ℕ → ℕ
  /-- The descriptor of the first address for which `socket` does not fail. -/
  socket : Option ℕ

namespace ITcpServer

/-- A new server. -/
def init : ITcpServer := ⟨0, ∅, ∅, 0⟩

/-- How far the next try lies from an occupied token, with this many tries left. -/
def stride (max_try_times random : ℕ) : ℕ :=
  if max_try_times > 900 then 1
  else if max_try_times > 500 then 100
  else if max_try_times > 100 then 200
  else random % 100 + 1

/-- The token 0 is not used. -/
def skipZero (token : ℕ) : ℕ := if token = 0 then token + 1 else token

/-- The loop over the tokens: the value of `max_try_times` after it, and the token.  The test
of the loop takes one off `max_try_times`, also when it is 0. -/
def findToken (directory : Std.ExtTreeMap ℕ ℕ) (random : ℕ → ℕ) : ℕ → ℕ → ℕ × ℕ
  | 0, token => (2 ^ 32 - 1, token)
  | max_try_times + 1, token =>
    if directory[skipZero token]? = none then (max_try_times, skipZero token)
    else findToken directory random max_try_times
      (add32 (skipZero token) (stride max_try_times (random max_try_times)))

variable (s : ITcpServer)

/-- The token that `activeConnect` is going to use, or 0. -/
def chooseToken (random : ℕ → ℕ) : ℕ :=
  let (max_try_times, token) := findToken s.tokenDirectory random 1000 s.nextToken
  if max_try_times = 0 then 0 else token

/-- The task of `activeConnect` is entered into both maps; `emplace` keeps an entry that is
there. -/
def enter (token fd : ℕ) : ITcpServer where
  nextToken := add32 token 1
  connectionsMap := s.connectionsMap.insertIfNew fd ⟨s.nextId, token, fd⟩
  tokenDirectory := s.tokenDirectory.insertIfNew token fd
  nextId := s.nextId + 1

/-- `ITcpServer::activeConnect`. -/
def activeConnect (request : ConnectRequest) : ℕ × ITcpServer :=
  if request.resolved then
    let token := s.chooseToken request.random
    if token > 0 then
      match request.socket with
      | none => (0, s)
      | some fd => (token, s.enter token fd)
    else (0, s)
  else (0, s)

/-- The maps after `release_task`. -/
def releaseTask (task : ConnectionTask) : ITcpServer :=
  { s with
    connectionsMap := s.connectionsMap.erase task.fd
    tokenDirectory := s.tokenDirectory.erase task.token }

/-- `ITcpServer::cancelActiveConnecttion`. -/
def cancelActiveConnecttion (token : ℕ) : ITcpServer :=
  match s.tokenDirectory[token]? with
  | none => s
  | some fd =>
    { s with
      connectionsMap := s.connectionsMap.erase fd
      tokenDirectory := s.tokenDirectory.erase token }

/-- `ITcpServer::stopAll`. -/
def stopAll : ITcpServer :=
  { s with
    connectionsMap := ∅
    tokenDirectory := s.connectionsMap.toList.foldl (fun m e => m.erase e.2.token)
      s.tokenDirectory }

end ITcpServer

end SignalEventLoop.Network
