import Luwes.Shared.Base
import Mathlib.Data.Int.Notation

/-!
# Access logger events (`shared/access_logger.go`)

What the access loggers of the examples read: the type of an event, and what its `AccessLoggerHandle`
answers about the stream.  The handle is valid for the time of the callback only, so its answers come with
the event.
-/

namespace Luwes

/-- `AccessLogType`. -/
inductive AccessLogType
  | notSet
  | tcpUpstreamConnected
  | tcpPeriodic
  | tcpConnectionEnd
  | downstreamStart
  | downstreamPeriodic
  | downstreamEnd
  | upstreamPoolReady
  | upstreamPeriodic
  | upstreamEnd
  | downstreamTunnelSuccessfullyEstablished
  | udpTunnelUpstreamConnected
  | udpPeriodic
  | udpSessionEnd
  deriving DecidableEq, Repr

/-- An event of `OnLog`.  A duration is in nanoseconds, and -1 if there is none. -/
structure LogEvent where
  logType : AccessLogType
  /-- `GetHeader` for the request header `x-request-id`. -/
  requestId : Option UnsafeEnvoyBuffer
  requestCompleteDurationNs : ℤ
  bytesReceived : UInt64
  bytesSent : UInt64
  responseCode : Option ℤ
  responseCodeDetails : Option UnsafeEnvoyBuffer
  responseFlags : UInt64
  upstreamTransportFailureReason : Option UnsafeEnvoyBuffer
  deriving DecidableEq, Repr

/-- The key under which `OnLog` looks for a record: only an event for the end of the downstream stream has
one, and it is never empty. -/
def LogEvent.key (ev : LogEvent) : Option GoString :=
  if ev.logType ≠ .downstreamEnd then none
  else ev.requestId.bind fun rid => if rid.toString = [] then none else some rid.toString

/-- A string attribute that is there and not empty replaces what was there before. -/
def orElse (v : Option UnsafeEnvoyBuffer) (old : GoString) : GoString :=
  match v with
  | some v => if 0 < v.len then v.toString else old
  | none => old

lemma LogEvent.key_ne_nil {ev : LogEvent} {k : GoString} (h : ev.key = some k) : k ≠ [] := by
  rw [LogEvent.key] at h
  split_ifs at h
  obtain ⟨rid, -, hk⟩ := Option.bind_eq_some_iff.mp h
  split_ifs at hk with hempty
  exact Option.some.inj hk ▸ hempty

end Luwes
