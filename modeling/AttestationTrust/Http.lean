import AttestationTrust.Http.Target
import AttestationTrust.Service
/-!
# Requests

Three paths: a report of the service, a run on demand where the settings allow it, and the validation of a chain
that a request brings; below a fourth there are files to be read, of which there is none.  A path that a route
has once pairs of slashes in it count as one is redirected there.  A certificate in a request is base64 in
either alphabet, with or without its padding (`Http.decodeCertificate`).
-/
namespace AttestationTrust
namespace Http

variable [Json.Limits]

structure Request where
  method : String
  target : String
  contentType : String
  body : Bytes

structure Response where
  status : Nat
  json : Option Value

def topic : String := "mds_trust.config"

def errorBody (message : String) : Value := .map [("error", .text message)]

def answer (status : Nat) (json : Value) : Response := ⟨status, some json⟩

/-- The octets of a certificate in a request. -/
def decodeCertificate : Value → Except Failure Bytes
  | .text s =>
    let cs := Text.trimList s.toList
    let padded := String.ofList (cs ++ List.replicate ((4 - cs.length % 4) % 4) '=')
    let octets :=
      if cs = [] then none
      else if cs.contains '-' || cs.contains '_' then (Base64.asciiOf padded).bind Base64.decodeUrl
      else (Base64.asciiOf padded).bind Base64.decodeStrict
    match octets with
    | some bs => .ok bs
    | none => .error (.value .notBase64)
  | _ => .error (.value .notBase64)

/-- Whether a request says that its body is JSON. -/
def isJson (contentType : String) : Bool :=
  let kind := (Text.lower (Text.trim (String.ofList (contentType.toList.takeWhile (· != ';'))))).toList
  kind == "application/json".toList ||
    ("application/".toList.isPrefixOf kind && "+json".toList.isSuffixOf kind)

/-- What a request to validate asks for. -/
structure Question where
  chain : List Bytes
  aaguid : Value

/-- The document in a body; a body that is none has none. -/
def document (r : Request) : Except Failure (Option Value) :=
  if !isJson r.contentType then .ok none
  else
    match Json.ofBytes r.body with
    | .ok v => .ok (some v)
    | .error .invalid => .ok none
    | .error .tooDeep => .error .tooDeep

/-- The question in a document, or the message that refuses it. -/
def readQuestion : Option Value → Except String Question
  | some (.map fields) =>
    match Value.field? "x5c" fields with
    | some (.list (x :: xs)) =>
      match (x :: xs).mapM decodeCertificate with
      | .error f => .error f.shown
      | .ok chain =>
        match (Value.field? "aaguid" fields).getD .null with
        | .null => .ok ⟨chain, .null⟩
        | .text s => .ok ⟨chain, .text s⟩
        | _ => .error "aaguid must be a string."
    | _ => .error "x5c must be a non-empty list of certificates."
  | _ => .error "Request body must be a JSON object."

def trusted (subject : String) (a : TrustAnchor) : Value := .map [
  ("trusted", .bool true), ("trustAnchor", .map [("subject", .text subject), ("source", .text a.source)])]

def untrusted (f : ChainFault) : Value := .map [("trusted", .bool false), ("reason", .text f.message)]

def validate (q : Question) (v : Validator) : Action Response := do
  match ← Action.attempt (v.validate (q.chain.map .octets) ⟨q.aaguid, .null, none⟩) with
  | .error (.chain f) => pure (answer 200 (untrusted f))
  | .error f => throw f
  | .ok a =>
    let subject ← Action.ofX509 a.certificate.subjectText
    pure (answer 200 (trusted subject a))

def verify (s : Service) (r : Request) : Action (Service.Outcome Response) := do
  match (document r).map readQuestion with
  | .error f => pure (s, .error f)
  | .ok (.error message) => pure (s, .ok (answer 400 (errorBody message)))
  | .ok (.ok q) =>
    match ← s.ensure with
    | (s, .error f) => pure (s, .error f)
    | (s, .ok none) => pure (s, .ok (answer 503 (errorBody "Attestation trust validation is unavailable.")))
    | (s, .ok (some v)) => pure (s, ← Action.attempt (validate q v))

def status (s : Service) : Action (Service.Outcome Response) := do
  let (s, report) ← s.status
  pure (s, .ok (answer 200 (.map report)))

def refresh (s : Service) : Action (Service.Outcome Response) := do
  if !s.settings.readFlag Setting.refreshRoute.key false then
    pure (s, .ok (answer 404 (errorBody "Manual metadata refresh is disabled.")))
  else
    match ← s.run with
    | (s, .ok _) => status s
    | (s, .error (.service f)) =>
      let message := (Failure.service f).shown
      Action.log .error topic ("Metadata service refresh failed: " ++ message)
      let (s, report) ← s.status
      pure (s, .ok (answer 503 (.map (Value.setField "error" (.text message) report))))
    | (s, .error f) => pure (s, .error f)

/-- The paths that a route answers for. -/
inductive Place where
  | at (path : String)
  | below (folder : String)
  deriving DecidableEq, Repr

/-- Whether a path is in a place.  Below a folder a name starts with no slash and goes on on one line. -/
def Place.has (path : List Char) : Place → Bool
  | .at p => path == p.toList
  | .below folder =>
    let start := folder.toList ++ ['/']
    start.isPrefixOf path &&
      match path.drop start.length with
      | [] => false
      | c :: rest => c != '/' && !rest.contains '\n'

/-- A place with what may be done to it. -/
structure Route where
  place : Place
  methods : List String
  run : Service → Request → Action (Service.Outcome Response)

/-- An answer without its body. -/
def headOnly : Except Failure Response → Except Failure Response
  | .ok r => .ok { r with json := none }
  | .error f => .error f

def readMethods : List String := ["GET", "HEAD", "OPTIONS"]
def postMethods : List String := ["POST", "OPTIONS"]

def statusRoute : Route where
  place := .at "/api/mds/status"
  methods := readMethods
  run := fun s r => do
    let (s, response) ← status s
    pure (s, if r.method = "HEAD" then headOnly response else response)

def refreshRoute : Route := ⟨.at "/api/mds/refresh", postMethods, fun s _ => refresh s⟩
def verifyRoute : Route := ⟨.at "/api/mds/verify", postMethods, verify⟩
def filesRoute : Route := ⟨.below "/static", readMethods, fun s _ => pure (s, .ok ⟨404, none⟩)⟩

def routes : List Route := [statusRoute, refreshRoute, verifyRoute, filesRoute]

/-- What there is for a method at a path. -/
inductive Match where
  | nothing
  | route (r : Route)
  | otherMethod
  | otherProtocol

def find (method : String) (isSocket : Bool) (path : List Char) : Match :=
  match routes.find? fun r => r.place.has path with
  | none => .nothing
  | some r =>
    if !r.methods.contains method then .otherMethod
    else if isSocket then .otherProtocol
    else .route r

/-- What there is for a method at a path when pairs of slashes in it count as one. -/
def findMerged (method : String) (t : Target) : Nat :=
  match find method t.isSocket (Target.mergeSlashes t.path) with
  | .nothing => 404
  | .route _ => 308
  | .otherMethod => 405
  | .otherProtocol => 400

/-- An unexpected failure is logged and answered without saying what it was. -/
def settle (r : Request) (t : Target) : Service.Outcome Response → Action (Service × Response)
  | (s, .ok response) => pure (s, response)
  | (s, .error _) => do
    Action.log .error topic ("Exception on " ++ String.ofList t.path ++ " [" ++ r.method ++ "]")
    pure (s, ⟨500, none⟩)

/-- The answer to a request, and the service after it. -/
def handle (s : Service) (r : Request) : Action (Service × Response) := do
  let t ← Action.ofExcept (Target.ofText r.target)
  match find r.method t.isSocket t.path with
  | .route route =>
    if r.method = "OPTIONS" then pure (s, ⟨200, none⟩) else settle r t (← route.run s r)
  | _ => pure (s, ⟨findMerged r.method t, none⟩)

end Http
end AttestationTrust
