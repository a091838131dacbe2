import ContractHost.Call.Registry
import ContractHost.Code.Checksum

/-!
# Invocations

What an engine is asked to run: an entry point of a module, with its environment, the
information about the caller, a message, and a limit for its gas.

## Main definitions

* `EntryPoint`: The functions a module may export.
* `Invocation`: One request to an engine.
* `EngineRun`: What is noted about a run of an engine.
-/

namespace ContractHost

/-- The functions a module may export. -/
inductive EntryPoint
  | instantiate
  | execute
  | migrate
  | superuser
  | reply
  | query
  | ibcChannelOpen
  | ibcChannelConnect
  | ibcChannelClose
  | ibcPacketReceive
  | ibcPacketAck
  | ibcPacketTimeout
deriving DecidableEq

namespace EntryPoint

/-- All entry points. -/
def all : List EntryPoint :=
  [instantiate, execute, migrate, superuser, reply, query, ibcChannelOpen, ibcChannelConnect,
    ibcChannelClose, ibcPacketReceive, ibcPacketAck, ibcPacketTimeout]

/-- The name of the export inside a module. -/
def exportName : EntryPoint → String
  | instantiate => "instantiate"
  | execute => "execute"
  | migrate => "migrate"
  | superuser => "sudo"
  | reply => "reply"
  | query => "query"
  | ibcChannelOpen => "ibc_channel_open"
  | ibcChannelConnect => "ibc_channel_connect"
  | ibcChannelClose => "ibc_channel_close"
  | ibcPacketReceive => "ibc_packet_receive"
  | ibcPacketAck => "ibc_packet_ack"
  | ibcPacketTimeout => "ibc_packet_timeout"

/-- Whether the entry point learns who called it. -/
def takesInfo : EntryPoint → Bool
  | instantiate => true
  | execute => true
  | _ => false

end EntryPoint

/-- One request to an engine. -/
structure Invocation where
  entry : EntryPoint
  checksum : Checksum
  env : Bytes
  /-- Who called, for the entry points that learn it. -/
  info : Option Bytes
  msg : Bytes
  gasLimit : UInt64
  printDebug : Bool

/-- What is noted about a run of an engine. -/
structure EngineRun where
  entry : EntryPoint
  checksum : Checksum
  call : Handle
  depth : UInt32

end ContractHost
