import PathPlanner.Server.SessionSafety
import PathPlanner.Wire.FrameStream

set_option autoImplicit false

namespace PathPlanner

open Arrivals Codec Wire

structure ServiceClient where
  nextSequence : UInt64 := 1
  sessionId : UInt64 := 0
  epoch : UInt64 := 0
  connected : Bool := false

-- How the socket takes the bytes of one exchange, and what arrives once it has taken them.
structure Link where
  departures : List Departure := []
  peer : Bytes → Incoming

inductive ClientCall where
  | handshake (label : Bytes)
  | ping
  | plan (requestText : Bytes) (includeExplanation : Bool)
  | listPlans
  | getPlan (planId : Digest)
  | revalidate (planId : Digest) (requestText : Bytes)
  | shutdown (expectedEpoch : UInt64)

inductive ClientAnswer where
  | greeted (ack : HelloAckPayload)
  | ponged
  | planned (response : PlanResponsePayload)
  | listed (response : ListPlansResponsePayload)
  | got (response : GetPlanResponsePayload)
  | revalidated (response : RevalidateResponsePayload)
  | stopping (request : ShutdownRequestPayload)

-- The error code of a number that the decoder of errors let through.
def ErrorCode.ofRaw (raw : Nat) : ErrorCode := (kCodeTable.find? fun code => code.raw = raw).getD .ok

namespace ServiceClient

def notConnected : Status := failure .socketFailure "the client is not connected"

def close (client : ServiceClient) : ServiceClient := { client with connected := false }

def advance (client : ServiceClient) : ServiceClient := { client with nextSequence := client.nextSequence + 1 }

-- One frame goes out under the next sequence number, and the frame that comes back has to carry it.
def roundTrip (link : Link) (outbound : FrameHeader) (payload : Bytes) (mismatch : Status) : Result Frame :=
  match writeFrame link.departures outbound payload with
  | (.error status, _, _) => .error status
  | (.ok _, sent, _) =>
      match (readFrame (link.peer sent)).1 with
      | .error status => .error status
      | .ok frame => if frame.header.sequence ≠ outbound.sequence then .error mismatch else .ok frame

def outbound (client : ServiceClient) (header : FrameHeader) : FrameHeader :=
  { header with sequence := client.nextSequence, epoch := client.epoch, sessionId := client.sessionId }

def exchange (client : ServiceClient) (link : Link) (header : FrameHeader) (payload : Bytes) : Result Frame × ServiceClient :=
  if client.connected = false then (.error notConnected, client)
  else
    (roundTrip link (client.outbound header) payload
      (failure .sequenceMismatch "the reply sequence does not match the request sequence"), client.advance)

-- A hello names no session yet.
def helloHeader (client : ServiceClient) : FrameHeader :=
  { type := .hello, sequence := client.nextSequence, epoch := client.epoch }

def helloPayload (client : ServiceClient) (label : Bytes) : HelloPayload where
  protocolVersion := UInt16.ofNat kWireProtocolVersion
  clientLabel := label
  observedEpoch := client.epoch

def acknowledged (frame : Frame) : Result HelloAckPayload :=
  if frame.header.type = .error then
    match decodeError frame.payload with
    | .ok payload => .error ⟨ErrorCode.ofRaw payload.code.toNat, payload.message⟩
    | .error _ => .error (failure .badProtocolVersion "the handshake was refused")
  else if frame.header.type ≠ .helloAck then
    .error (failure .unexpectedFrameType "the coordinator did not answer the handshake")
  else
    match decodeHelloAck frame.payload with
    | .error status => .error status
    | .ok ack =>
        if ack.protocolVersion.toNat ≠ kWireProtocolVersion then
          .error (failure .badProtocolVersion "the coordinator speaks a different protocol version")
        else .ok ack

def handshake (client : ServiceClient) (link : Link) (label : Bytes) : Result HelloAckPayload × ServiceClient :=
  if client.connected = false then (.error notConnected, client)
  else
    match roundTrip link client.helloHeader (encodeHello (client.helloPayload label))
        (failure .sequenceMismatch "the handshake reply sequence does not match") with
    | .error status => (.error status, client.advance)
    | .ok frame =>
        match acknowledged frame with
        | .error status => (.error status, client.advance)
        | .ok ack => (.ok ack, { client.advance with sessionId := ack.sessionId, epoch := ack.epoch })

-- The answer to a request is a frame of the one type the request asks for.
def answered {α : Type} (type : FrameType) (unanswered : String) (decode : Bytes → Result α) (frame : Frame) : Result α :=
  if frame.header.type ≠ type then .error (failure .unexpectedFrameType unanswered) else decode frame.payload

def ask {α : Type} (client : ServiceClient) (link : Link) (header : FrameHeader) (payload : Bytes) (type : FrameType) (unanswered : String)
    (decode : Bytes → Result α) : Result α × ServiceClient :=
  let (reply, after) := client.exchange link header payload
  (reply >>= answered type unanswered decode, after)

variable (client : ServiceClient) (link : Link)

def ping : Result Unit × ServiceClient :=
  client.ask link { type := .ping } [] .pong "the coordinator did not answer the ping" fun _ => .ok ()

def plan (requestText : Bytes) (includeExplanation : Bool) : Result PlanResponsePayload × ServiceClient :=
  client.ask link { type := .planRequest, requestId := 1 } (encodePlanRequest { requestId := 1, includeExplanation, requestText })
    .planResponse "the coordinator did not answer the plan request" decodePlanResponse

def listPlans : Result ListPlansResponsePayload × ServiceClient :=
  client.ask link { type := .listPlansRequest, requestId := 1 } (encodeListPlansRequest { requestId := 1 })
    .listPlansResponse "the coordinator did not answer the list request" decodeListPlansResponse

def getPlan (planId : Digest) : Result GetPlanResponsePayload × ServiceClient :=
  client.ask link { type := .getPlanRequest, requestId := 1 } (encodeGetPlanRequest { requestId := 1, planId })
    .getPlanResponse "the coordinator did not answer the get request" decodeGetPlanResponse

def revalidate (planId : Digest) (requestText : Bytes) : Result RevalidateResponsePayload × ServiceClient :=
  client.ask link { type := .revalidateRequest, requestId := 1 } (encodeRevalidateRequest { requestId := 1, planId, requestText })
    .revalidateResponse "the coordinator did not answer the revalidate request" decodeRevalidateResponse

-- The acknowledgement is not decoded; what was asked is handed back.
def shutdown (expectedEpoch : UInt64) : Result ShutdownRequestPayload × ServiceClient :=
  client.ask link { type := .shutdownRequest, requestId := 1 } (encodeShutdownRequest { requestId := 1, expectedEpoch })
    .shutdownAck "the coordinator did not acknowledge the shutdown" fun _ => .ok { requestId := 1, expectedEpoch }

def perform : ClientCall → Result ClientAnswer × ServiceClient
  | .handshake label => let (result, after) := client.handshake link label; (result.map .greeted, after)
  | .ping => let (result, after) := client.ping link; (result.map fun _ => .ponged, after)
  | .plan requestText includeExplanation =>
      let (result, after) := client.plan link requestText includeExplanation
      (result.map .planned, after)
  | .listPlans => let (result, after) := client.listPlans link; (result.map .listed, after)
  | .getPlan planId => let (result, after) := client.getPlan link planId; (result.map .got, after)
  | .revalidate planId requestText =>
      let (result, after) := client.revalidate link planId requestText
      (result.map .revalidated, after)
  | .shutdown expectedEpoch => let (result, after) := client.shutdown link expectedEpoch; (result.map .stopping, after)

end ServiceClient

end PathPlanner
