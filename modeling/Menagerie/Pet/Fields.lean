import Menagerie.Pet.Layout
import Menagerie.Wire.Grammar

/-! Which pet, request or response fields describe. Of the fields with the tag of a number or a text the last
one counts, and without any the default does. All fields with the tag of an embedded pet describe it
together, as if what they hold were held by one. -/

namespace Menagerie

open Wire

/-- This is the pet that fields describe. -/
structure Pet.DescribedBy (p : Pet) (fs : List Field) : Prop where
  kind : Field.LastNumber 1 fs p.kind
  id : Field.LastText 2 fs p.id
  name : Field.LastText 3 fs p.name

/-- This is the pet that the fields with a tag describe in what they hold; it is missing without them. -/
def Pet.EmbeddedIn (tag : Nat) (fs : List Field) : Option Pet → Prop
  | none => Field.contents tag fs = []
  | some p => Field.contents tag fs ≠ [] ∧
      ∃ inner, Fields (depthLimit - 1) inner (Field.contents tag fs).flatten ∧ p.DescribedBy inner

/-- The kinds of messages about pets. -/
inductive MessageKind where
  | pet | getRequest | getResponse | putRequest | putResponse | deleteRequest | deleteResponse
  deriving DecidableEq, Repr

namespace MessageKind

abbrev Value : MessageKind → Type
  | pet => Pet
  | getRequest => GetPetRequest
  | getResponse => GetPetResponse
  | putRequest => PutPetRequest
  | putResponse => PutPetResponse
  | deleteRequest => DeletePetRequest
  | deleteResponse => DeletePetResponse

instance : (k : MessageKind) → Message k.Value
  | pet => inferInstanceAs (Message Pet)
  | getRequest => inferInstanceAs (Message GetPetRequest)
  | getResponse => inferInstanceAs (Message GetPetResponse)
  | putRequest => inferInstanceAs (Message PutPetRequest)
  | putResponse => inferInstanceAs (Message PutPetResponse)
  | deleteRequest => inferInstanceAs (Message DeletePetRequest)
  | deleteResponse => inferInstanceAs (Message DeletePetResponse)

/-- The tags in the schema of a kind. -/
def tags : MessageKind → List Nat
  | pet => [1, 2, 3]
  | putRequest => [1, 2]
  | getRequest | getResponse | putResponse | deleteRequest => [1]
  | deleteResponse => []

/-- This is the message of a kind that fields describe. -/
def DescribedBy : (k : MessageKind) → k.Value → List Field → Prop
  | pet, p, fs => p.DescribedBy fs
  | getRequest, r, fs => Field.LastText 1 fs r.id
  | getResponse, r, fs => Pet.EmbeddedIn 1 fs r.pet
  | putRequest, r, fs => Field.LastNumber 1 fs r.kind ∧ Field.LastText 2 fs r.name
  | putResponse, r, fs => Pet.EmbeddedIn 1 fs r.pet
  | deleteRequest, r, fs => Field.LastText 1 fs r.id
  | deleteResponse, _, _ => True

end MessageKind

end Menagerie
