import PqcUtils.Dump.Packet
import PqcUtils.Library.Runs
import PqcUtils.Wire.Kexinit

/-!
# SSH sessions in a capture

`process_ssh` records every accepted `SSH_MSG_KEXINIT` in two maps: the sessions,
keyed by the direction of the first message seen, and the capabilities of the
hosts. `processSsh` is the code; `recordKex` is what it does once the parser has
accepted.
-/

namespace PqcUtils.Dump

open Bytes Text Net

structure FlowKey where
  src : String
  dst : String
  deriving DecidableEq, Repr

structure KexInit where
  kexAlgorithms : List String
  deriving DecidableEq, Repr

structure NegotiatedAlgorithms where
  kex : String
  deriving DecidableEq, Repr

structure SshSession where
  clientKexinit : Option KexInit
  serverKexinit : Option KexInit
  negotiated : Option NegotiatedAlgorithms
  deriving DecidableEq, Repr

instance : Inhabited SshSession := ⟨⟨none, none, none⟩⟩

structure HostCapabilities where
  supportedKex : Finset String
  deriving DecidableEq

instance : Inhabited HostCapabilities := ⟨⟨∅⟩⟩

/-- The two maps that `process_ssh` is handed. -/
structure SshStore where
  sessions : HashMap FlowKey SshSession
  hostCaps : HashMap String HostCapabilities

def SshStore.empty : SshStore := ⟨∅, ∅⟩

/-! ## Parsing -/

def sshMsgKexinit : UInt8 := 20

/-- An error stands for the `None` of the source. -/
def readU32 (data : Bytes) : Outcome Unit (UInt32 × Bytes) := do
  Outcome.rejectIf (data.length < 4) ()
  let a ← index data 0
  let b ← index data 1
  let c ← index data 2
  let d ← index data 3
  let rest ← slice data 4 data.length
  pure (be32 a b c d, rest)

def readNameListOwned (data : Bytes) : Outcome Unit (List String × Bytes) := do
  let (len, data) ← readU32 data
  Outcome.rejectIf (data.length < len.toNat) ()
  let listBytes ← slice data 0 len.toNat
  let data ← slice data len.toNat data.length
  match fromUtf8 listBytes with
  | some listStr => pure (splitOn ',' listStr, data)
  | none => .err ()

def skipNameLists : Nat → Bytes → Outcome Unit Bytes
  | 0, data => pure data
  | count + 1, data => do
    let (_, data) ← readNameListOwned data
    skipNameLists count data

def parseSshKexinit (payload : Bytes) : Outcome Unit KexInit := do
  Outcome.rejectIf (payload.length < 6) ()
  let messageNumber ← index payload 5
  Outcome.rejectIf (messageNumber ≠ sshMsgKexinit) ()
  let data ← slice payload 6 payload.length
  Outcome.rejectIf (data.length < 16) ()
  let data ← slice data 16 data.length
  let (kexAlgorithms, data) ← readNameListOwned data
  let _ ← skipNameLists 9 data
  pure ⟨kexAlgorithms⟩

/-! ## The store -/

def formatSocketAddr (ip : String) (port : UInt16) : String :=
  if ':' ∈ ip.toList then "[" ++ ip ++ "]:" ++ toString port.toNat
  else ip ++ ":" ++ toString port.toNat

/-- The first name of the client's list that the server's list contains. -/
def negotiate (client server : List String) : Option String :=
  match client with
  | [] => none
  | alg :: client => if alg ∈ server then some alg else negotiate client server

def updateHostCaps (hostCaps : HashMap String HostCapabilities) (host : String) (kex : KexInit) :
    HashMap String HostCapabilities :=
  hostCaps.update host default fun entry =>
    ⟨kex.kexAlgorithms.foldl (fun supported alg => insert alg supported) entry.supportedKex⟩

/-- The last block of `process_ssh`. -/
def SshSession.settle (session : SshSession) : SshSession :=
  match session.negotiated, session.clientKexinit, session.serverKexinit with
  | none, some client, some server =>
    match negotiate client.kexAlgorithms server.kexAlgorithms with
    | some kex => { session with negotiated := some ⟨kex⟩ }
    | none => session
  | _, _, _ => session

def FlowKey.reverse (flow : FlowKey) : FlowKey := ⟨flow.dst, flow.src⟩

/-- `process_ssh` from the session lookup on, for a message from `srcIp` along `flow`. -/
def recordKex (store : SshStore) (srcIp : String) (flow : FlowKey) (kex : KexInit) : SshStore :=
  let (key, session, isForward) :=
    match store.sessions.lookup flow with
    | some session => (flow, session, true)
    | none =>
      match store.sessions.lookup flow.reverse with
      | some session => (flow.reverse, session, false)
      | none => (flow, default, true)
  let (session, hostCaps) :=
    if isForward ∧ session.clientKexinit.isNone then
      ({ session with clientKexinit := some kex }, updateHostCaps store.hostCaps srcIp kex)
    else if ¬isForward ∧ session.serverKexinit.isNone then
      ({ session with serverKexinit := some kex }, updateHostCaps store.hostCaps srcIp kex)
    else
      (session, store.hostCaps)
  ⟨Finmap.insert key session.settle store.sessions, hostCaps⟩

abbrev Endpoint := IpAddr × UInt16

def Endpoint.key (endpoint : Endpoint) : String :=
  formatSocketAddr endpoint.1.display endpoint.2

def SlicedPacket.endpoints (packet : SlicedPacket) : Option (Endpoint × Endpoint) :=
  match packet.tcp, packet.addresses with
  | some tcp, some (source, destination) =>
    some ((source, tcp.sourcePort), (destination, tcp.destinationPort))
  | _, _ => none

/-- `process_ssh`; `none` if it panics. -/
def processSsh (packet : SlicedPacket) (payload : Bytes) (store : SshStore) : Option SshStore :=
  match parseSshKexinit payload with
  | .panic => none
  | .err _ => some store
  | .ok kex =>
    match packet.endpoints with
    | none => some store
    | some (source, destination) =>
      some (recordKex store source.1.display ⟨source.key, destination.key⟩ kex)

end PqcUtils.Dump
