import StyleEngine.Json.Writer
import StyleEngine.Service.Answer

/-!
# Delivery

How the standard server writes answers.  An answer that cannot be written becomes an internal error
that says why:

* A reply to a message that was served may nest `maxDepth` values; infinities and NaN in it are
  written as null.
* Any other answer is written as JSON text, which has no infinity and no NaN.
* No answer holds a surrogate.
-/

namespace StyleEngine.Service

open Schema Text

/-! ## Content of replies -/

mutual

/-- A value as a reply can hold it: JSON has no infinity and no NaN, so they become null. -/
def content : Value → Value
  | .number (.float x) => if x.isFinite then .float x else .null
  | .list items => .list (contentItems items)
  | .map entries => .map (contentEntries entries)
  | v => v

def contentItems : List Value → List Value
  | [] => []
  | v :: rest => content v :: contentItems rest

def contentEntries : List (String × Value) → List (String × Value)
  | [] => []
  | (name, v) :: rest => (name, content v) :: contentEntries rest

end

/-! ## Content of rejections -/

mutual

/-- A value as a rejection shows it: entries whose names start with `_sa` are not shown. -/
def disclosed : Value → Value
  | .list items => .list (disclosedItems items)
  | .map entries => .map (disclosedEntries entries)
  | v => v

def disclosedItems : List Value → List Value
  | [] => []
  | v :: rest => disclosed v :: disclosedItems rest

def disclosedEntries : List (String × Value) → List (String × Value)
  | [] => []
  | (name, v) :: rest =>
    if "_sa".toList.isPrefixOf name.toList then disclosedEntries rest
    else (name, disclosed v) :: disclosedEntries rest

end

def placeContent : Place → Value
  | .name s => .text s
  | .index i => .int i

def issueContent (i : Issue) : Value :=
  let context := match i.kind.context with
    | [] => []
    | entries => [("ctx", .map entries)]
  .map
    ([("type", .text i.kind.word), ("loc", .list (i.path.map placeContent)),
      ("msg", .text (withoutSurrogates i.kind.message)), ("input", disclosed i.input)] ++ context)

def rejection (issues : List Issue) : Value := .map [("detail", .list (issues.map issueContent))]

/-! ## Writing -/

/-- Why an answer cannot be written. -/
inductive WriteFlaw where
  | notFinite
  | tooDeep
  | surrogates (run : SurrogateRun)
deriving DecidableEq

def WriteFlaw.message : WriteFlaw → String
  | .notFinite => "Out of range float values are not JSON compliant"
  | .tooDeep => "ValueError: Maximum serialization depth exceeded"
  | .surrogates ⟨position, first, following⟩ =>
    let start := String.ofList (natChars position)
    let place :=
      if following = 0 then "character " ++ Text.quoted (spell [first]) ++ " in position " ++ start
      else
        "characters in position " ++ start ++ "-" ++
          String.ofList (natChars (position + following))
    "'utf-8' codec can't encode " ++ place ++ ": surrogates not allowed"

def codesFlaw? (cs : List Code) : Option WriteFlaw := (surrogateRun? cs).map .surrogates

def textFlaw? (s : String) : Option WriteFlaw := codesFlaw? (codes s)

/-! ## Replies -/

/-- How many values may stand in one another, below the names of a reply. -/
def maxDepth : Nat := 255

mutual

/-- The first flaw of a value in which so many may stand in one another, itself included. -/
def valueFlaw? (room : Nat) (v : Value) : Option WriteFlaw :=
  if room = 0 then some .tooDeep
  else match v with
    | .text s => textFlaw? s
    | .list items => itemsFlaw? (room - 1) items
    | .map entries => entriesFlaw? (room - 1) entries
    | _ => none

def itemsFlaw? (room : Nat) : List Value → Option WriteFlaw
  | [] => none
  | v :: rest =>
    match valueFlaw? room v with
    | none => itemsFlaw? room rest
    | some flaw => some flaw

def entriesFlaw? (room : Nat) : List (String × Value) → Option WriteFlaw
  | [] => none
  | (name, v) :: rest =>
    match textFlaw? name with
    | some flaw => some flaw
    | none =>
      match valueFlaw? room v with
      | none => entriesFlaw? room rest
      | some flaw => some flaw

end

/-- The first flaw of a reply, which is a map. -/
def replyFlaw? : Value → Option WriteFlaw
  | .map entries => entriesFlaw? maxDepth entries
  | v => valueFlaw? maxDepth v

/-! ## Delivery -/

/-- The first flaw of JSON text. -/
def jsonFlaw? (v : Value) : Option WriteFlaw :=
  if Json.hasNonFinite v then some .notFinite else codesFlaw? (Json.write v)

/-- What the flaws of a reply are called, surrogates with their kind. -/
def replyFlawMessage (flaw : WriteFlaw) : String :=
  "Error serializing to JSON: " ++
    match flaw with
    | .surrogates run => "UnicodeEncodeError: " ++ (WriteFlaw.surrogates run).message
    | flaw => flaw.message

/-- What is wrong with an answer, if it cannot be written. -/
def Answer.flaw? : Answer → Option String
  | .reply status body =>
    if status = success then (replyFlaw? body).map replyFlawMessage
    else (jsonFlaw? body).map WriteFlaw.message
  | .rejected issues => (jsonFlaw? (rejection issues)).map WriteFlaw.message
  | .page _ _ => none

/-- An answer as it is written. -/
def Answer.written : Answer → Answer
  | .reply status body => .reply status (if status = success then content body else body)
  | a => a

/-- An answer as it is written, or the internal error that takes its place. -/
def Answer.deliver (a : Answer) : Answer :=
  match a.flaw? with
  | none => a.written
  | some message => internalError message

end StyleEngine.Service
