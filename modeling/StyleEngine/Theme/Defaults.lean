import StyleEngine.Theme.Document
import StyleEngine.Theme.Shadow

/-!
# The default theme

Default sizes and colors, which a caller may override name by name.
-/

namespace StyleEngine.Theme.Defaults

/-! ## Tokens -/

def sizes : Fields Value :=
  [("xsmall", .text "0.25rem"), ("small", .text "0.5rem"), ("medium", .text "1rem"),
   ("large", .text "2rem"), ("xlarge", .text "3rem"),
   ("gutter", .text "2rem"), ("radius", .text "0.5rem"), ("radius_round", .text "100rem"),
   ("border", .text "1px"), ("font_body", .text "2rem"), ("font_caption", .text "1.5rem"),
   ("font_heading", .text "3rem")]

def palette : Fields Value :=
  [("primary", .text "#6E6346"), ("accent", .text "#2E4D37"),
   ("text", .text "#2B2B2B"), ("text_muted", .text "#6A6A6A"),
   ("background", .text "#FFFFFF"), ("surface", .text "#F5F5F5"), ("border", .text "#E5E5E5"),
   ("error", .text "#D1064F"), ("warning", .text "#A26200"), ("success", .text "#496D00"),
   ("shadow", .text shadowColor)]

/-! ## Overriding -/

/-- Why overrides give no theme. -/
inductive Flaw where
  /-- A token group to be overridden is no map. -/
  | fault (fault : Fault)
  /-- The root metric is none. -/
  | issues (issues : List Schema.Issue)

/-- A default group with the entries of the overrides written over it. -/
def group (defaults : Fields Value) (overrides : Fields Value) (name : String) :
    Except Fault (Fields Value) :=
  match Fields.get? overrides name with
  | none => .ok defaults
  | some (.map entries) => .ok (Fields.merge defaults entries)
  | some value => .error (.notMap value)

/-- The root metric of the overrides; unlike in data, the default is a float. -/
def rem (overrides : Fields Value) : Schema.Checked Number :=
  Schema.optional overrides "rem" (.float 8) fun value => (Schema.extent value).map Number.float

def build (overrides : Fields Value) : Except Flaw Theme := do
  let sizes ← (group sizes overrides "sizes").mapError .fault
  let colors ← (group palette overrides "colors").mapError .fault
  let rem ← (rem overrides).mapError .issues
  pure ⟨rem, sizes, colors, some defaultElevation⟩

/-- The theme without overrides. -/
def theme : Theme := ⟨.float 8, sizes, palette, some defaultElevation⟩

end StyleEngine.Theme.Defaults
