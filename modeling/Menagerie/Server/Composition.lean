import Menagerie.Server.Registration
import Menagerie.Text.Quoted
import Menagerie.Text.Record

/-! A server is composed of registrations, which run in order up to the first obstacle: one that fails,
or one that adds a path for the second time. -/

namespace Menagerie

/-- What stops a composition. -/
inductive Obstacle where
  | failed (e : StartupError)
  /-- A path was added twice; the program is aborted. -/
  | clash

/-- A server with its services, ready to serve. -/
structure ComposedServer where
  names : List String
  routes : Routes

structure Composition where
  /-- The registrations that ran, in order, the one that stopped the composition among them. -/
  tried : List Registration
  /-- The names answered, in order. -/
  registered : List String
  result : Except Obstacle ComposedServer

/-- Runs a registration on the routes so far: the name that it answers, and the routes with its
services. -/
def Registration.run (r : Registration) (routes : Routes) : Except Obstacle (String × Routes) :=
  match r with
  | .fails e => .error (.failed e)
  | .adds name services =>
    match routes.addAll? services with
    | none => .error .clash
    | some routes => .ok (name, routes)

namespace Composition

/-- Runs the rest of the registrations; those in `tried` have run and answered `names`. -/
def advance (tried : List Registration) (names : List String) (routes : Routes) :
    List Registration → Composition
  | [] => ⟨tried, names, .ok ⟨names, routes⟩⟩
  | r :: rest =>
    match r.run routes with
    | .error o => ⟨tried ++ [r], names, .error o⟩
    | .ok (name, routes) => advance (tried ++ [r]) (names ++ [name]) routes rest

/-- How many registrations ran. -/
def ran (c : Composition) : Nat := c.tried.length

end Composition

def compose (registrations : List Registration) : Composition :=
  Composition.advance [] [] {} registrations

def ComposedServer.display (s : ComposedServer) : String :=
  "ComposedServer \x7b services: " ++ Text.quoteAll s.names ++ ", .. \x7d"

end Menagerie
