import Menagerie.Descriptor.Set

/-! The files that describe the services: pets, health and reflection. -/

namespace Menagerie.Schema

open Descriptor

/-- Numbers of the value types that occur. -/
inductive ValueType where
  | text | octets | int32
  | message (name : String)
  | enumeration (name : String)

/-- The name of a field in JSON: what follows an underscore begins in upper case. -/
def jsonName (name : String) : String := String.ofList (joined false name.toList)
where
  /-- The characters but the underscores; `raised` says whether one stands before them. -/
  joined (raised : Bool) : List Char → List Char
    | [] => []
    | c :: rest =>
      if c = '_' then joined true rest
      else (if raised then c.toUpper else c) :: joined false rest

def optionalLabel : Int32 := 1

def repeatedLabel : Int32 := 3

def field (name : String) (number : Int32) (type : ValueType) (label : Int32 := optionalLabel)
    (oneof : Option Int32 := none) : Field :=
  let (code, typeName) : Int32 × String :=
    match type with
    | .text => (9, "")
    | .octets => (12, "")
    | .int32 => (5, "")
    | .message n => (11, n)
    | .enumeration n => (14, n)
  { name, number, label, type := code, typeName, jsonName := jsonName name, oneof }

def message (name : String) (fields : List Field) (enums : List Enumeration := [])
    (oneofs : List String := []) : Message :=
  { name, fields, enums, oneofs := oneofs.map fun n => ⟨some n⟩ }

def enumeration (name : String) (values : List String) : Enumeration :=
  { name, values := values.zipIdx.map fun v => ⟨v.1, Int32.ofNat v.2⟩ }

def unary (name input output : String) : Method := { name, input, output }

def pets : File where
  name := "petstore.proto"
  package := "pet.v1"
  syntaxName := "proto3"
  messages := [
    message "Pet" [field "pet_type" 1 (.enumeration ".pet.v1.PetType"), field "pet_id" 2 .text,
      field "name" 3 .text],
    message "GetPetRequest" [field "pet_id" 1 .text],
    message "GetPetResponse" [field "pet" 1 (.message ".pet.v1.Pet")],
    message "PutPetRequest" [field "pet_type" 1 (.enumeration ".pet.v1.PetType"),
      field "name" 2 .text],
    message "PutPetResponse" [field "pet" 1 (.message ".pet.v1.Pet")],
    message "DeletePetRequest" [field "pet_id" 1 .text],
    message "DeletePetResponse" []]
  enums := [enumeration "PetType" ["PET_TYPE_UNSPECIFIED", "PET_TYPE_CAT", "PET_TYPE_DOG",
    "PET_TYPE_SNAKE", "PET_TYPE_HAMSTER"]]
  services := [{ name := "PetStoreService", methods := [
    unary "GetPet" ".pet.v1.GetPetRequest" ".pet.v1.GetPetResponse",
    unary "PutPet" ".pet.v1.PutPetRequest" ".pet.v1.PutPetResponse",
    unary "DeletePet" ".pet.v1.DeletePetRequest" ".pet.v1.DeletePetResponse"] }]

def health : File where
  name := "health.proto"
  package := "grpc.health.v1"
  syntaxName := "proto3"
  messages := [
    message "HealthCheckRequest" [field "service" 1 .text],
    message "HealthCheckResponse"
      [field "status" 1 (.enumeration ".grpc.health.v1.HealthCheckResponse.ServingStatus")]
      [enumeration "ServingStatus" ["UNKNOWN", "SERVING", "NOT_SERVING", "SERVICE_UNKNOWN"]]]
  services := [{ name := "Health", methods := [
    unary "Check" ".grpc.health.v1.HealthCheckRequest" ".grpc.health.v1.HealthCheckResponse",
    { unary "Watch" ".grpc.health.v1.HealthCheckRequest" ".grpc.health.v1.HealthCheckResponse" with
      serverStreaming := true }] }]

def reflection : File where
  name := "reflection_v1.proto"
  package := "grpc.reflection.v1"
  syntaxName := "proto3"
  messages := [
    message "ServerReflectionRequest" [field "host" 1 .text, choice "file_by_filename" 3 .text,
      choice "file_containing_symbol" 4 .text,
      choice "file_containing_extension" 5 (.message ".grpc.reflection.v1.ExtensionRequest"),
      choice "all_extension_numbers_of_type" 6 .text, choice "list_services" 7 .text] []
      ["message_request"],
    message "ExtensionRequest" [field "containing_type" 1 .text, field "extension_number" 2 .int32],
    message "ServerReflectionResponse" [field "valid_host" 1 .text,
      field "original_request" 2 (.message ".grpc.reflection.v1.ServerReflectionRequest"),
      choice "file_descriptor_response" 4 (.message ".grpc.reflection.v1.FileDescriptorResponse"),
      choice "all_extension_numbers_response" 5
        (.message ".grpc.reflection.v1.ExtensionNumberResponse"),
      choice "list_services_response" 6 (.message ".grpc.reflection.v1.ListServiceResponse"),
      choice "error_response" 7 (.message ".grpc.reflection.v1.ErrorResponse")] []
      ["message_response"],
    message "FileDescriptorResponse" [field "file_descriptor_proto" 1 .octets repeatedLabel],
    message "ExtensionNumberResponse" [field "base_type_name" 1 .text,
      field "extension_number" 2 .int32 repeatedLabel],
    message "ListServiceResponse"
      [field "service" 1 (.message ".grpc.reflection.v1.ServiceResponse") repeatedLabel],
    message "ServiceResponse" [field "name" 1 .text],
    message "ErrorResponse" [field "error_code" 1 .int32, field "error_message" 2 .text]]
  services := [{ name := "ServerReflection", methods := [
    { unary "ServerReflectionInfo" ".grpc.reflection.v1.ServerReflectionRequest"
        ".grpc.reflection.v1.ServerReflectionResponse" with
      clientStreaming := true, serverStreaming := true }] }]
where
  /-- A field of the one choice that a request or a response makes. -/
  choice (name : String) (number : Int32) (type : ValueType) : Field :=
    field name number type optionalLabel (some 0)

/-- The full name of the only service of a file. -/
def serviceName (f : File) : String := f.serviceNames.headD ""

end Menagerie.Schema
