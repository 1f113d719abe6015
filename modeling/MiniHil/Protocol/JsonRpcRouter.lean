import MiniHil.Protocol.MethodHandlers

/-! # The JSON-RPC router -/
namespace MiniHil
open Throwing

/-- `m_methods` -/
abbrev JsonRpcRouter (H : Type) := List (Bytes × MethodHandler H)

namespace JsonRpcRouter
variable {H : Type}

def registerMethod (name : Bytes) (handler : MethodHandler H) (router : JsonRpcRouter H) : JsonRpcRouter H :=
  (name,handler) :: router

def makeErrorResponse (id : Json) (code : ℤ) (message : Bytes) : Json :=
  .ofMembers [(ascii "jsonrpc",.string (ascii "2.0")),
    (ascii "error",.ofMembers [(ascii "code",.integer code),(ascii "message",.string message)]),(ascii "id",id)]

def makeSuccessResponse (id result : Json) : Json :=
  .ofMembers [(ascii "jsonrpc",.string (ascii "2.0")),(ascii "result",result),(ascii "id",id)]

/-- The structure check of `processSingleRequest`, before its method is read. -/
def isRequest (reqJson : Json) : Bool :=
  reqJson.isObject && reqJson.contains (ascii "jsonrpc") &&
    (reqJson.member (ascii "jsonrpc")).equalsString (ascii "2.0") && reqJson.contains (ascii "method")

def requestId (reqJson : Json) : Json :=
  if reqJson.contains (ascii "id") then reqJson.member (ascii "id") else .null

def requestParams (reqJson : Json) : Json :=
  if reqJson.contains (ascii "params") then reqJson.member (ascii "params") else .object []

/-- The body of the `try`: find the handler, run it and wrap what it returns. -/
def callMethod (lib : JsonLib) (router : JsonRpcRouter H) (method : Bytes) (params id : Json) : Rpc H Json :=
  match router.lookup method with
  | some handler => do
    let result ← handler params id
    if result.isObject && result.contains (ascii "error") && result.contains (ascii "code") then do
      let code ← liftM (lib.getInt (result.member (ascii "code")))
      let message ← liftM (JsonLib.getString (result.member (ascii "error")))
      pure (makeErrorResponse id code message)
    else pure (makeSuccessResponse id result)
  | none => pure (makeErrorResponse id (-32601) (ascii "Method not found: " ++ method))

def processSingleRequest (lib : JsonLib) (router : JsonRpcRouter H) (reqJson : Json) : Rpc H Json :=
  let id := requestId reqJson
  if !isRequest reqJson then
    pure (makeErrorResponse id (-32600) (ascii "Invalid Request: Missing required JSON-RPC 2.0 fields"))
  else do
    let method ← liftM (JsonLib.getString (reqJson.member (ascii "method")))
    tryCatch (callMethod lib router method (requestParams reqJson) id) fun e =>
      pure (makeErrorResponse id (-32603) (ascii "Internal error: Exception occurred in handler: " ++ e.what))

/-- The loop over a batch: the responses that are not null. -/
def processBatch (lib : JsonLib) (router : JsonRpcRouter H) : List Json → Rpc H (List Json)
  | [] => pure []
  | singleReq :: rest => do
    let singleRes ← processSingleRequest lib router singleReq
    let responses ← processBatch lib router rest
    pure (if singleRes.isNull then responses else singleRes :: responses)

/-- `dump() + "\n"` -/
def dumpLine (lib : JsonLib) (j : Json) : Rpc H Bytes := do
  let text ← liftM (lib.dump j)
  pure (text ++ [0x0A])

def processRequest (lib : JsonLib) (router : JsonRpcRouter H) (rawRequest : Bytes) : Rpc H Bytes :=
  match lib.parse rawRequest with
  | .error (.parseError what) => dumpLine lib (makeErrorResponse .null (-32700) (ascii "Parse error: " ++ what))
  | .error e => throw e
  | .ok (.array []) => dumpLine lib (makeErrorResponse .null (-32600) (ascii "Invalid Request: Empty batch"))
  | .ok (.array elements) => do
    let batchResponse ← processBatch lib router elements
    if batchResponse.isEmpty then pure [] else dumpLine lib (.array batchResponse)
  | .ok rootRequest => do
    let rootResponse ← processSingleRequest lib router rootRequest
    if rootResponse.isNull then pure [] else dumpLine lib rootResponse

/-- The methods that `main` registers, in its order. -/
def mainRouter (lib : JsonLib) (hw : Hardware H) : JsonRpcRouter H :=
  registerMethod (ascii "get_relay_status") (getRelayStatusHandler lib hw) <|
  registerMethod (startBlinkMethod lib).name (commandHandler lib hw (startBlinkMethod lib)) <|
  registerMethod (startPulseMethod lib).name (commandHandler lib hw (startPulseMethod lib)) <|
  registerMethod (startTimerMethod lib).name (commandHandler lib hw (startTimerMethod lib)) <|
  registerMethod (ascii "get_relays") (getRelaysHandler hw) <|
  registerMethod setRelayMethod.name (commandHandler lib hw setRelayMethod) []

end JsonRpcRouter
end MiniHil
