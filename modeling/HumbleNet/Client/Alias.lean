import HumbleNet.Client.Connection

/-! Connections to peers that are known by a name (`humblenet_alias.cpp`). -/
namespace HumbleNet.Client

open Guarded

def virtualPeer : PeerId := 0x80000000

def internalAliasRegister (env : Externals) (name : Option Bytes) : ClientM Bool := do
  match name.map cStr with
  | none | some [] =>
    humblenetSetError "No name or empty name provided"
    pure false
  | some name => sendAliasRegister (sendP2PMessage env) name

def internalAliasUnregister (env : Externals) (name : Option Bytes) : ClientM Bool := do
  match name.map cStr with
  | some [] =>
    humblenetSetError "Empty name provided"
    pure false
  | some name => sendAliasUnregister (sendP2PMessage env) name
  | none => sendAliasUnregister (sendP2PMessage env) []

def internalAliasLookup (name : Bytes) : ClientM PeerId := do
  let s ← get
  match s.virtualPeerNames.listB.lookup (cStr name) with
  | some vpeer => pure vpeer
  | none =>
    -- allocate a new VPeerId
    let next := s.nextVirtualPeer + 1
    let vpeer := next ||| virtualPeer
    modify fun s =>
      { s with
        nextVirtualPeer := next
        virtualPeerNames := s.virtualPeerNames.insert vpeer (cStr name) }
    pure vpeer

def internalAliasResolvedTo (aliasName : Bytes) (peer : PeerId) : ClientM Unit := do
  match (← get).pendingAliasConnectionsOut.lookup aliasName with
  | none => pure ()
  | some connection =>
    modify fun s =>
      { s with pendingAliasConnectionsOut := s.pendingAliasConnectionsOut.erase aliasName }
    if peer = 0 then humblenetConnectionSetClosed connection
    else
      assign connection fun c => { c with otherPeer := peer }
      mark (.pend .outgoing peer)
      modify fun s =>
        { s with
          pendingPeerConnectionsOut :=
            StdMap.emplace peer connection s.pendingPeerConnectionsOut }
      if ← isPeerBlacklisted peer then
        humblenetSetError "peer blacklisted"
        humblenetConnectionSetClosed connection
      else
        let socket ← internalCreateWebrtc
        mark (.opening connection)
        assign connection fun c => { c with socket := socket }
        -- the lock is not held between the two assignments
        unguarded Query.pause
        let c ← deref connection
        mark (.adopt connection)
        internalSetData c.socket (some connection)
        let ret ← internalCreateOffer c.socket
        doWhen (ret = false) (humblenetConnectionSetClosed connection)

def internalAliasIsVirtualPeer (peer : PeerId) : Bool :=
  decide (peer &&& virtualPeer = virtualPeer)

def internalAliasGetVirtualPeer (conn : ConnPtr) : ClientM PeerId := do
  match (← get).virtualPeerConnections.listB.lookup conn with
  | none => pure 0
  | some vpeer => pure vpeer

def internalAliasFindConnection (peer : PeerId) : ClientM (Option ConnPtr) := do
  if internalAliasIsVirtualPeer peer then
    match (← get).virtualPeerConnections.listA.lookup peer with
    | none => pure none
    | some conn =>
      let c ← deref conn
      if c.status = .closed then
        modify fun s =>
          { s with virtualPeerConnections := s.virtualPeerConnections.eraseA peer }
        pure none
      else pure (some conn)
  else pure none

def internalAliasCreateConnection (env : Externals) (peer : PeerId) :
    ClientM (Option ConnPtr) := do
  match ← internalAliasFindConnection peer with
  | some conn => pure (some conn)
  | none =>
    match (← get).virtualPeerNames.listA.lookup peer with
    | none =>
      humblenetSetError "Not a valid VPeerId"
      pure none
    | some name =>
      if ← sendAliasLookup (sendP2PMessage env) name then
        let conn ← newConnection (Connection.new .outgoing) (some peer)
        modify fun s =>
          { s with
            pendingAliasConnectionsOut :=
              StdMap.emplace name conn s.pendingAliasConnectionsOut }
        modify fun s =>
          { s with virtualPeerConnections := s.virtualPeerConnections.insert peer conn }
        pure (some conn)
      else pure none

end HumbleNet.Client
