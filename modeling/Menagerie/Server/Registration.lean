import Menagerie.Schema
import Menagerie.StartupError

/-! Services and their registration. A registration adds services under paths and answers a name, or it
fails. A path can be added once. -/

namespace Menagerie

/-- What answers the calls of a service. -/
inductive Endpoint where
  | pets
  | health
  | reflection (catalogue : Descriptor.Catalogue)

structure Service where
  path : String
  endpoint : Endpoint

inductive Registration where
  | adds (name : String) (services : List Service)
  | fails (e : StartupError)

/-- The services by their paths. -/
structure Routes where
  services : List Service := []
  nodup_paths : (services.map (·.path)).Nodup := by exact List.nodup_nil

namespace Routes

def find? (r : Routes) (path : String) : Option Service := r.services.find? (·.path = path)

/-- Adds a service, unless its path is taken. -/
def add? (r : Routes) (s : Service) : Option Routes :=
  if h : s.path ∈ r.services.map (·.path) then none
  else some ⟨r.services ++ [s], by
    rw [List.map_append, List.nodup_append]
    refine ⟨r.nodup_paths, by simp, ?_⟩
    intro a ha b hb hab
    simp only [List.map_cons, List.map_nil, List.mem_singleton] at hb
    exact h (hb ▸ hab ▸ ha)⟩

/-- Adds services one by one. -/
def addAll? : Routes → List Service → Option Routes
  | r, [] => some r
  | r, s :: rest =>
    match r.add? s with
    | none => none
    | some r => r.addAll? rest

end Routes

namespace Registration

/-- The services that a registration adds. -/
def services : Registration → List Service
  | adds _ services => services
  | fails _ => []

/-- The name that a registration answers, unless it fails. -/
def name? : Registration → Option String
  | adds name _ => some name
  | fails _ => none

/-- A registration that only has a name. -/
def named (name : String) : Registration := .adds name []

/-- Registers one service under its own name. -/
def service (name : String) (endpoint : Endpoint) : Registration := .adds name [⟨name, endpoint⟩]

/-- Registers reflection over encoded sets and over its own file, and answers `name`. -/
def reflectionOver (name : String) (sets : List (List UInt8)) : Registration :=
  match Descriptor.Catalogue.ofSets (sets ++ [Descriptor.encodeSet [Schema.reflection]]) with
  | .error fault => .fails (.reflection fault)
  | .ok catalogue =>
    .adds name [⟨Schema.serviceName Schema.reflection, .reflection catalogue⟩]

/-- Reflection over the files of pets and health. -/
def reflection : Registration :=
  reflectionOver (Schema.serviceName Schema.reflection)
    [Descriptor.encodeSet [Schema.pets], Descriptor.encodeSet [Schema.health]]

def health : Registration := service (Schema.serviceName Schema.health) .health

/-- A store of its own, empty at first. -/
def pets : Registration := service (Schema.serviceName Schema.pets) .pets

/-- What a server registers unless it is told otherwise. -/
def standard : List Registration := [reflection, health, pets]

end Registration

end Menagerie
