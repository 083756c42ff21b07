import SwapRelay.Json.Reader
import SwapRelay.Route
import SwapRelay.Service.Path

/-!
# The service

The answers of the service to single calls, without the network: `POST /compile` compiles a request
and `GET /health` says that the service is there. A call to compile is answered in this order: a
body that is no JSON is refused, then the configuration is read from the environment, then the body
is checked as a request, and only then is anything compiled. A fault of the route is told to the
sender; any other error is the service's own.
-/

namespace SwapRelay.Service

structure Call where
  /-- The method, in whatever case. -/
  method : String
  /-- The path, with whatever query follows it. -/
  path : String
  contentType : String
  body : String
  deriving DecidableEq, Repr

inductive Body where
  | json (j : Json)
  | text (s : String)

structure Reply where
  status : Nat
  body : Body

namespace Reply

def refusal (status : Nat) (detail : Json) : Reply :=
  ⟨status, .json (.obj [("detail", detail)])⟩

def failure : Reply :=
  ⟨500, .text "Internal Server Error"⟩

/-- The answer to a body with issues. It repeats the values at fault, and one that cannot be written
as JSON makes it fail. -/
def issues (found : List Issue) : Reply :=
  if found.all (·.input.isWritable) then
    refusal 422 (.arr (found.map (·.inBody.toJson)))
  else failure

end Reply

/-- The media type is JSON, or of a format built on it. -/
def isJsonType (contentType : String) : Bool :=
  let written := Text.trimOf Text.isBlankOrSeparator (contentType.toList.takeWhile (· ≠ ';'))
  let kind := Text.lower written
  let main := kind.takeWhile (· ≠ '/')
  let sub := kind.drop (main.length + 1)
  main == "application".toList && !sub.contains '/' &&
    (sub == "json".toList || "+json".toList.isSuffixOf sub)

/-- How deep the arrays and objects of a body may be nested. -/
def maxDepth : Nat := 950

inductive Content where
  | empty
  /-- Bytes that are not read as JSON. -/
  | raw
  | json (j : Json)

/-- The content of a call's body, or the refusal of it. -/
def content (call : Call) : Except Reply Content :=
  if call.body.isEmpty then .ok .empty
  else if isJsonType call.contentType then
    match Json.read maxDepth call.body with
    | .ok j => .ok (.json j)
    | .error (.malformed offset) =>
      .error (.refusal 422 (.arr [.obj [
        ("loc", .arr [.str "body", .int offset]), ("type", .str "json_invalid"),
        ("msg", .str "JSON decode error")]]))
    | .error _ => .error (.refusal 400 (.str "There was an error parsing the body"))
  else .ok .raw

def Content.check : Content → Check RouteRequest
  | .empty => Check.flaw .missing .null
  | .raw => Check.flaw .notObject .null
  | .json j => RouteRequest.check j

/-- The answer to a checked request, with what is reported on the way. -/
def compile (config : Config) (now : Binary64) (request : RouteRequest) : List Event × Reply :=
  let received : Event :=
    .routeReceived request.tokenIn request.tokenOut request.swaps.length request.pools.length
  let run := request.compileLogged config (config.deadlineAfter now)
  let events := received :: run.events
  match run.result with
  | .ok compiled => (events, ⟨200, .json compiled.toJson⟩)
  | .error (.route cause) =>
    (events ++ [.compileRejected cause], .refusal 422 (.str cause.message))
  | .error _ => (events, .failure)

def answerCompile (env : Environment) (now : Binary64) (call : Call) : List Event × Reply :=
  match content call with
  | .error refused => ([], refused)
  | .ok content =>
    match Config.ofEnvironment env with
    | .error _ => ([], .failure)
    | .ok config =>
      match content.check with
      | .bad found => ([], .issues found)
      | .good request => compile config now request

/-- The answer to a call, when the clock shows `now` seconds. -/
def handle (env : Environment) (now : Binary64) (call : Call) : List Event × Reply :=
  let wrongMethod : List Event × Reply := ([], .refusal 405 (.str "Method Not Allowed"))
  let method := call.method.toUpper
  match String.ofList (pathOf call.path.toList) with
  | "/health" =>
    if method = "GET" then ([], ⟨200, .json (.obj [("status", .str "ok")])⟩) else wrongMethod
  | "/compile" => if method = "POST" then answerCompile env now call else wrongMethod
  | _ => ([], .refusal 404 (.str "Not Found"))

end SwapRelay.Service
