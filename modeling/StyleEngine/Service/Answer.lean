import StyleEngine.Failure
import StyleEngine.Fields
import StyleEngine.Schema.Issue

/-!
# Answers

What the service answers a message with.  How an answer is written, and what becomes of one that
cannot be, is up to the server that the service runs in.
-/

namespace StyleEngine.Service

open Schema

inductive Answer where
  | reply (status : Nat) (body : Value)
  /-- The body of the message is not what was expected, status 422. -/
  | rejected (issues : List Issue)
  /-- A page, a redirect or whatever else is no JSON. -/
  | page (status : Nat) (text : String)

def success : Nat := 200

def unprocessable : Nat := 422

/-- A map of texts. -/
def record (entries : Fields String) : Value := .map (entries.map fun e => (e.1, .text e.2))

def detail (status : Nat) (text : String) : Answer := .reply status (record [("detail", text)])

/-- The body of the message could not be read at all. -/
def unreadableBody : Answer := detail 400 "There was an error parsing the body"

def internalError (text : String) : Answer :=
  .reply 500 (record [("error", "Internal server error"), ("detail", text)])

def faultAnswer (f : Fault) : Answer := internalError f.message

def failureAnswer : Failure → Answer
  | .resolution e => detail 400 ("Resolution error: " ++ e.message)
  | .fault f => faultAnswer f

end StyleEngine.Service
