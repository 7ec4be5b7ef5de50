import StyleEngine.Fields
import StyleEngine.Number.Plain
import StyleEngine.Schema.Issue
import StyleEngine.Value

/-!
# Shapes

Checks of single values, of lists and maps of them, and of the fields of a record.
-/

namespace StyleEngine.Schema

variable {α : Type}

/-! ## Single values -/

/-- A float; numbers, truth values and texts that spell a float are taken for one. -/
def float (value : Value) : Checked Float :=
  match value with
  | .bool b => .ok (if b then 1 else 0)
  | .number n =>
    match n.toFloat? with
    | some x => .ok x
    | none => Checked.fail .notFloat value
  | .text s =>
    if Text.hasSurrogate s then Checked.fail .notReadable value
    else match PlainFloat.parse? s with
      | some x => .ok x
      | none => Checked.fail .unreadableFloat value
  | _ => Checked.fail .notFloat value

/-- A float that is at least 0, which NaN is not. -/
def extent (value : Value) : Checked Float := do
  let x ← float value
  if 0 ≤ x then pure x else Checked.fail .belowZero value

def text : Value → Checked String
  | .text s => .ok s
  | value => Checked.fail .notText value

/-- One of the values that have a name here. -/
def choice (choices : List (String × α)) (value : Value) : Checked α :=
  let other := Checked.fail (.notChoice (Fields.keys choices)) value
  match value with
  | .text s =>
    if Text.hasSurrogate s then Checked.fail .notReadable value
    else match Fields.get? choices s with
      | some x => .ok x
      | none => other
  | _ => other

def nullable (check : Value → Checked α) : Value → Checked (Option α)
  | .null => .ok none
  | value => (check value).map some

/-! ## Lists and maps -/

/-- The items from position `i` on. -/
def itemsFrom (check : Value → Checked α) (i : Nat) : List Value → Checked (List α)
  | [] => .ok []
  | value :: rest =>
    ((check value).under (.index i)).map List.cons |>.ap (itemsFrom check (i + 1) rest)

def list (check : Value → Checked α) : Value → Checked (List α)
  | .list items => itemsFrom check 0 items
  | value => Checked.fail .notList value

def map : Value → Checked (Fields Value)
  | .map entries => .ok entries
  | value => Checked.fail .notMap value

def entriesOf (check : Value → Checked α) : Fields Value → Checked (Fields α)
  | [] => .ok []
  | (name, value) :: rest =>
    ((check value).under (.name name)).map (fun x more => (name, x) :: more)
      |>.ap (entriesOf check rest)

def mapOf (check : Value → Checked α) (value : Value) : Checked (Fields α) := do
  entriesOf check (← map value)

/-! ## Records -/

/-- The fields of a record; those it does not know do no harm. -/
def record : Value → Checked (Fields Value)
  | .map entries => .ok entries
  | value => Checked.fail .notRecord value

/-- A field that has to be there; that it is missing is an issue of the whole record. -/
def required (fields : Fields Value) (name : String) (check : Value → Checked α) : Checked α :=
  match Fields.get? fields name with
  | some value => (check value).under (.name name)
  | none => (Checked.fail .missing (.map fields)).under (.name name)

/-- A field with a value for when it is missing, which is not checked. -/
def optional (fields : Fields Value) (name : String) (fallback : α) (check : Value → Checked α) :
    Checked α :=
  match Fields.get? fields name with
  | some value => (check value).under (.name name)
  | none => .ok fallback

end StyleEngine.Schema
