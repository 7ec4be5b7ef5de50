import StyleEngine.Theme

/-!
# Shadows

The default shadow of a level is that of the closest defined level at or below it; below all of
them, and for NaN, it is the shadow of level 0.
-/

namespace StyleEngine.Theme

structure Shadow where
  level : Int
  opacity : Float
  /-- Blur radius in pixels. -/
  radius : Number
  /-- Vertical offset in pixels. -/
  offset : Int

/-- The defined levels, in ascending order. -/
def shadows : List Shadow :=
  [⟨0, 0.0, .int 0, 0⟩, ⟨1, 0.18, .int 1, 1⟩, ⟨2, 0.20, .float 2.5, 1⟩, ⟨3, 0.22, .int 3, 2⟩,
   ⟨4, 0.24, .float 4.5, 2⟩, ⟨6, 0.27, .int 6, 3⟩, ⟨8, 0.30, .int 8, 4⟩, ⟨12, 0.34, .int 12, 6⟩,
   ⟨16, 0.38, .int 16, 8⟩, ⟨24, 0.44, .int 24, 12⟩]

def noShadow : Shadow := ⟨0, 0.0, .int 0, 0⟩

def shadowColor : String := "#000000"

def Shadow.toFields (s : Shadow) : Fields Value :=
  [("shadowColor", .text shadowColor),
   ("shadowOpacity", .float s.opacity),
   ("shadowRadius", .text (s.radius.text ++ "px")),
   ("shadowOffset", .map [("width", .int 0), ("height", .int s.offset)])]

def shadowAt (level : Number) : Shadow :=
  ((shadows.filter fun s => (Number.int s.level).le level).getLast?).getD noShadow

/-- The default elevation; levels are numbers or truth values. -/
def shadowFor (level : Value) : Except Fault (Fields Value) :=
  match level.number? with
  | some n => .ok (shadowAt n).toFields
  | none => .error (.unorderedLevel level)

def defaultElevation : Elevation := fun level => (shadowFor level).map some

end StyleEngine.Theme
