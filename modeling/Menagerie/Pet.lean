/-! Pets, and the requests and answers about them. The species of a pet is kept as its number, so that
numbers without a name survive. -/

namespace Menagerie

inductive Species where
  | unspecified | cat | dog | snake | hamster
  deriving DecidableEq, Repr

namespace Species

def number : Species → Int32
  | unspecified => 0
  | cat => 1
  | dog => 2
  | snake => 3
  | hamster => 4

def all : List Species := [unspecified, cat, dog, snake, hamster]

def ofNumber? (n : Int32) : Option Species := all.find? (·.number = n)

/-- The name in messages. -/
def label : Species → String
  | unspecified => "PET_TYPE_UNSPECIFIED"
  | cat => "PET_TYPE_CAT"
  | dog => "PET_TYPE_DOG"
  | snake => "PET_TYPE_SNAKE"
  | hamster => "PET_TYPE_HAMSTER"

def ofLabel? (s : String) : Option Species := all.find? (·.label = s)

/-- The short name. -/
def name : Species → String
  | unspecified => "Unspecified"
  | cat => "Cat"
  | dog => "Dog"
  | snake => "Snake"
  | hamster => "Hamster"

/-- The species with a number, the unspecified one if the number has none. -/
def ofNumber (n : Int32) : Species := (ofNumber? n).getD unspecified

/-- The short name of a number's species, or the number. -/
def nameOfNumber (n : Int32) : String :=
  match ofNumber? n with
  | some s => s.name
  | none => toString n.toInt

theorem ofNumber?_number (s : Species) : ofNumber? s.number = some s := by
  cases s <;> decide

end Species

structure Pet where
  kind : Int32 := 0
  id : String := ""
  name : String := ""
  deriving DecidableEq, Repr

/-- The species of a pet, the unspecified one if its number has none. -/
def Pet.species (p : Pet) : Species := Species.ofNumber p.kind

structure GetPetRequest where
  id : String := ""
  deriving DecidableEq, Repr

structure GetPetResponse where
  pet : Option Pet := none
  deriving DecidableEq, Repr

structure PutPetRequest where
  kind : Int32 := 0
  name : String := ""
  deriving DecidableEq, Repr

structure PutPetResponse where
  pet : Option Pet := none
  deriving DecidableEq, Repr

structure DeletePetRequest where
  id : String := ""
  deriving DecidableEq, Repr

structure DeletePetResponse where
  deriving DecidableEq, Repr

end Menagerie
