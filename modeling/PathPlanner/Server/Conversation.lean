import PathPlanner.Server.Client
import PathPlanner.Wire.PayloadCodecs

set_option autoImplicit false

namespace PathPlanner

open Arrivals Checks Codec StoreFiles Wire

namespace ReplyPayload

-- The bounds under which the client's decoders give a reply back.
def Fits : ReplyPayload → Prop
  | .helloAck value => value.Fits
  | .pong => True
  | .error value => value.Fits
  | .planResponse value => value.Fits
  | .getPlanResponse value => value.Fits
  | .listPlansResponse value => value.Fits
  | .revalidateResponse value => value.Fits
  | .shutdownAck _ => True

end ReplyPayload

namespace ServiceClient

-- The frame a call sends.
def asked (client : ServiceClient) : ClientCall → FrameHeader × Bytes
  | .handshake label => (client.helloHeader, encodeHello (client.helloPayload label))
  | .ping => (client.outbound { type := .ping }, [])
  | .plan requestText includeExplanation =>
      (client.outbound { type := .planRequest, requestId := 1 }, encodePlanRequest { requestId := 1, includeExplanation, requestText })
  | .listPlans => (client.outbound { type := .listPlansRequest, requestId := 1 }, encodeListPlansRequest { requestId := 1 })
  | .getPlan planId => (client.outbound { type := .getPlanRequest, requestId := 1 }, encodeGetPlanRequest { requestId := 1, planId })
  | .revalidate planId requestText =>
      (client.outbound { type := .revalidateRequest, requestId := 1 }, encodeRevalidateRequest { requestId := 1, planId, requestText })
  | .shutdown expectedEpoch =>
      (client.outbound { type := .shutdownRequest, requestId := 1 }, encodeShutdownRequest { requestId := 1, expectedEpoch })

variable (client : ServiceClient) (link : Link)

end ServiceClient

-- One call of the client, and the world in which the coordinator handles its frame.
structure Turn where
  call : ClientCall
  link : Link
  env : ServerEnvironment
  dir : Directory
  coordinator : Coordinator

namespace Turn

open ServiceClient

variable (texts : TextForms) (client : ServiceClient) (session : Session) (turn : Turn)

def delivery : Delivery := ⟨turn.env, turn.dir, turn.coordinator, received (client.asked turn.call)⟩

-- The reply the coordinator decides on.
def reply : ReplyPayload := ((turn.delivery client).answer texts session).reply

variable {texts client session turn}

end Turn

open Turn ServiceClient

namespace Sample

def textless : TextForms where
  parseRequestSpec _ := .error (failure .emptyInput "the request text is empty")
  explainPlan _ _ := []
  explainDenials _ := []

-- A link that delivers what the coordinator wrote, in two pieces.
def honest (session : Session) (world : Delivery) : Link where
  departures := [.taken 9, .interrupted]
  peer bytes :=
    match decodeFrame bytes with
    | .error _ => []
    | .ok frame =>
        let written := (Delivery.handled textless session { world with frame }).written
        [.piece (written.take 20), .interrupted, .piece (written.drop 20)]

def world : Delivery where
  env := { files := quietEnvironment [] 0, micros := 0, sendFault := none }
  dir := fun _ => none
  coordinator := { epoch := 5, incarnation := 2 }
  frame := ⟨{}, []⟩

def turn (session : Session) (call : ClientCall) : Turn := { world with call, link := honest session world }

def dialled : ServiceClient := { connected := true }

def opened : Session := { id := 7 }

def greets : Turn := turn opened (.handshake (text "cli"))

def shaken : Session := ((greets.delivery dialled).handled textless opened).session

end Sample

end PathPlanner
