import StyleEngine.Service
import StyleEngine.Service.Delivery
import StyleEngine.Service.Path

/-!
# The standard server

A server as a client sees it that follows redirects, so slashes at the end of a path do not count.
Its pages about the service are left out, and so are the headers that let other sites in.
-/

namespace StyleEngine.Service

namespace Host

def routes : List Route := [.health, .placeholders, .resolve]

/-- Methods are compared in upper case. -/
def accepts (route : Route) (method : String) : Bool :=
  String.ofList (Text.upper method.toList) = route.method

def routeOf? (method path : String) : Option Route :=
  routes.find? fun route => accepts route method && route.path = Path.plain path

def notFound : Answer := detail 404 "Not Found"

def wrongMethod : Answer := detail 405 "Method Not Allowed"

def stray (m : Message) : Answer :=
  if routes.any fun route => route.path = Path.plain m.path then wrongMethod else notFound

theorem routeOf?_self (route : Route) : routeOf? route.method route.path = some route := by
  cases route <;> decide +kernel

end Host

def host (settings : Settings) : Server where
  settings := settings
  route? m := Host.routeOf? m.method m.path
  reaches m route hmethod hpath := by rw [hmethod, hpath, Host.routeOf?_self]
  stray := Host.stray
  deliver := Answer.deliver

section
variable (settings : Settings)

@[simp] theorem host_settings : (host settings).settings = settings := rfl

@[simp] theorem host_deliver : (host settings).deliver = Answer.deliver := rfl

end

end StyleEngine.Service
