import Menagerie.Descriptor.SetFault

/-! Descriptors of files with messages, enumerations and services. Whatever carries a name may lack it:
a descriptor that was read is not yet known to be usable. -/

namespace Menagerie.Descriptor

/-- A field of a message; label and type are numbers of the format, and zero is no number of either. -/
structure Field where
  name : Option String
  number : Int32 := 0
  label : Int32 := 0
  type : Int32 := 0
  typeName : String := ""
  jsonName : String := ""
  oneof : Option Int32 := none
  deriving DecidableEq, Repr

structure Oneof where
  name : Option String
  deriving DecidableEq, Repr

structure EnumValue where
  name : Option String
  number : Int32 := 0
  deriving DecidableEq, Repr

structure Enumeration where
  name : Option String
  values : List EnumValue := []
  deriving DecidableEq, Repr

/-- A message, with the messages and enumerations declared inside. -/
structure Message where
  name : Option String
  nested : List Message := []
  enums : List Enumeration := []
  fields : List Field := []
  oneofs : List Oneof := []

structure Method where
  name : Option String
  input : String := ""
  output : String := ""
  clientStreaming : Bool := false
  serverStreaming : Bool := false
  deriving DecidableEq, Repr

structure Service where
  name : Option String
  methods : List Method := []
  deriving DecidableEq, Repr

structure File where
  name : Option String
  package : String := ""
  dependencies : List String := []
  messages : List Message := []
  enums : List Enumeration := []
  services : List Service := []
  syntaxName : String := ""

end Menagerie.Descriptor
