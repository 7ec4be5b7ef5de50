import StyleEngine.Text.Blank
import StyleEngine.Text.Case

/-!
# Platforms

The platform a style is rendered on decides whether properties of web pages are kept.  White space
around its name and the case of its letters do not count.
-/

namespace StyleEngine.Platform

def native : String := "native"

def web : String := "web"

/-- A platform's name without white space around it, in lower case. -/
def canonical (platform : String) : String :=
  String.ofList (Text.lower (Text.strip platform.toList))

def isWeb (platform : String) : Bool := canonical platform = web

end StyleEngine.Platform
