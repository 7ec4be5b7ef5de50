import StyleEngine.Json
import StyleEngine.Resolution
import StyleEngine.Service.Answer
import StyleEngine.Service.Request
import StyleEngine.Settings
import StyleEngine.Theme.Defaults

/-!
# The service

Answers messages one after the other.  Its only state is the registry of the placeholders it has
handed out, and only a request for placeholders changes it:

    (serve settings r body .resolve).2 = r                       (serve_resolve_registry)

* `GET /health` says that the service is up.
* `POST /placeholders` encodes variables.
* `POST /resolve` resolves a style.

The server that the service runs in takes messages to these routes, answers all other messages by
itself and writes the answers.  Nothing is assumed of it but that the method and the path of a route
lead there.  Answers have no timing, and nothing is logged.
-/

namespace StyleEngine.Service

open Schema

/-! ## Messages -/

inductive Body where
  | absent
  /-- A text as it arrives, in which every character stands for itself. -/
  | text (s : String)
  /-- The JSON text of a value. -/
  | data (v : Value)

structure Message where
  method : String
  path : String
  body : Body

/-! ## Routes -/

inductive Route where
  | health
  | placeholders
  | resolve
deriving DecidableEq

def Route.path : Route → String
  | .health => "/health"
  | .placeholders => "/placeholders"
  | .resolve => "/resolve"

def Route.method : Route → String
  | .health => "GET"
  | .placeholders => "POST"
  | .resolve => "POST"

/-! ## Bodies -/

def placeOfBody : Place → Place
  | .name s => .name (Text.withoutSurrogates s)
  | .index i => .index i

/-- A flaw of a body, told of the message. -/
def ofBody (issue : Issue) : Issue :=
  { issue with
    kind := if issue.kind = .notRecord then .notObject else issue.kind
    path := .name "body" :: issue.path.map placeOfBody }

def reject (issues : List Issue) : Answer := .rejected (issues.map ofBody)

/-- There is no body; an empty text is none. -/
def missingBody : Answer := reject [⟨.missing, [], .null⟩]

/-- The data of a body.  An integer with too many digits is not read. -/
def dataOf : Body → Except Answer Value
  | .absent => .error missingBody
  | .data v => if v.isPrintable then .ok v else .error unreadableBody
  | .text s =>
    if s.isEmpty then .error missingBody
    else match Json.read s with
      | .ok v => .ok v
      | .error (.malformed position) => .error (reject [⟨.notJson, [.index position], .map []⟩])
      | .error .unreadable => .error unreadableBody

/-- The request in a body, or the answer that turns it down. -/
def accept {α : Type} (check : Value → Checked α) (body : Body) : Except Answer α := do
  (check (← dataOf body)).mapError reject

/-! ## Placeholders -/

/-- Encodes names one after the other, up to the first fault. -/
def encodeAll (discipline : Discipline) (fallback : Value) (r : Registry)
    (placeholders : Fields String) : List String → Except Fault (Fields String) × Registry
  | [] => (.ok placeholders, r)
  | name :: rest =>
    match r.encode discipline (.text name) fallback with
    | (.ok p, r') => encodeAll discipline fallback r' (Fields.set placeholders name p) rest
    | (.error e, r') => (.error e, r')

def placeholdersAnswer (placeholders : Fields String) : Answer :=
  .reply success (.map [("placeholders", record placeholders)])

def encode (r : Registry) (request : PlaceholderRequest) : Answer × Registry :=
  let fallback := (request.fallback.map Value.text).getD .null
  match encodeAll request.discipline fallback r [] request.names with
  | (.ok placeholders, r') => (placeholdersAnswer placeholders, r')
  | (.error f, r') => (faultAnswer f, r')

/-! ## Resolution -/

/-- What a request is resolved in. -/
def contextOf (settings : Settings) (r : Registry) (request : ResolveRequest) :
    Resolution.Context :=
  let theme := (request.theme.map Theme.Document.toTheme).getD Theme.Defaults.theme
  { theme := theme
    viewport := request.viewport
    units := Units.ofViewport theme.rootMetric request.viewport request.parent
    registry := r
    platform := request.platform.getD settings.platform }

def resolve (settings : Settings) (r : Registry) (request : ResolveRequest) : Answer :=
  match Resolution.resolve (contextOf settings r request) request.style with
  | .ok style => .reply success (.map [("style", .map style)])
  | .error f => failureAnswer f

/-! ## Routes served -/

def health : Answer := .reply success (record [("status", "ok")])

/-- The answer of a route. -/
def serve (settings : Settings) (r : Registry) (body : Body) : Route → Answer × Registry
  | .health => (health, r)
  | .placeholders =>
    match accept PlaceholderRequest.check body with
    | .ok request => encode r request
    | .error a => (a, r)
  | .resolve =>
    match accept ResolveRequest.check body with
    | .ok request => (resolve settings r request, r)
    | .error a => (a, r)

/-! ## Servers -/

/-- What the service runs in. -/
structure Server where
  settings : Settings := {}
  /-- The route that a message takes. -/
  route? : Message → Option Route
  /-- A message with the method and the path of a route takes it. -/
  reaches : ∀ m route, m.method = route.method → m.path = route.path → route? m = some route
  /-- The answer to a message that takes no route. -/
  stray : Message → Answer
  /-- What an answer of a route becomes when it is written. -/
  deliver : Answer → Answer

section
variable (server : Server)

def step (r : Registry) (m : Message) : Answer × Registry :=
  match server.route? m with
  | none => (server.stray m, r)
  | some route =>
    let (answer, r') := serve server.settings r m.body route
    (server.deliver answer, r')

/-- The answers to a sequence of messages. -/
def answers (r : Registry) : List Message → List Answer
  | [] => []
  | m :: rest => (step server r m).1 :: answers (step server r m).2 rest

end

/-- The registry that a service starts with: its length tokens count from a number. -/
def start (label : String) (seed : Int) : Registry := { source := TokenSource.ofInt label seed }

/-! ## Lemmas -/

theorem serve_resolve_registry (settings : Settings) (r : Registry) (body : Body) :
    (serve settings r body .resolve).2 = r := by
  simp only [serve]
  cases accept ResolveRequest.check body <;> rfl

end StyleEngine.Service
